import Mathlib.Data.List.AList
import Mathlib.Data.List.Sort
import Mathlib.Data.String.Basic
import Wmfs.Lib.Keys
import Wmfs.Runtime.Registry

/-!
# `Wmfs.Runtime.Aliases`: the dictionaries of the operation registry

`OperationRegistry` of `registry.py`, with its five dictionaries and with names as texts. An entry
of `_aliases` is missing, or it has the qualified name of the one declaration, or it is `None`, and
`register` updates it one declaration after the other.

* `registered_registerAll`: what the dictionaries have after a sequence of registrations is a
  function of the declarations (`Indexed`).
* `alias_law`: a short name is resolved exactly when one plugin declares it, and no answer depends
  on the order of the registrations.
* `operation_refines`: the registry of `Runtime.Registry`, which is a list of plugins, gives the
  same answers.
-/

set_option autoImplicit false

namespace Wmfs.Runtime.Dictionaries

open Wmfs.Lib (find?_eq_some_iff_of_nodup)
open Wmfs.Manifest (OperationMetadata)

/-- A `dict` with texts as keys. -/
abbrev Dictionary (α : Type) : Type := AList fun _ : String => α

/-- What the methods of the registry raise. -/
inductive RegistryError where
  | alreadyRegistered (plugin : String)
  | notRegistered (name : String)
  | ambiguous (name : String) (choices : List String)
  | pluginNotRegistered (plugin : String)
  | idNotRegistered (operationId : Int) (plugin : String)
  deriving DecidableEq, Repr

/-- `OperationRegistry`. -/
structure Registry where
  plugins : Dictionary PluginMetadata
  operations : Dictionary OperationMetadata
  operationPlugins : Dictionary String
  aliases : Dictionary (Option String)
  operationIds : Dictionary (AList fun _ : Int => OperationMetadata)

/-- `f"{plugin}.{name}"`. -/
def qualifiedName (plugin name : String) : String := plugin ++ "." ++ name

/-- `"." in name`. -/
def hasDot (name : String) : Bool := decide ('.' ∈ name.toList)

/-- `sorted(names)`. -/
def sorted (names : List String) : List String := names.insertionSort (· ≤ ·)

namespace Registry

/-- `OperationRegistry()`. -/
def empty : Registry := ⟨∅, ∅, ∅, ∅, ∅⟩

/-- An iteration of the loop of `register`. -/
def registerOperation (r : Registry) (plugin : String) (operation : OperationMetadata) :
    Registry :=
  let qualified := qualifiedName plugin operation.name
  { r with
    operations := r.operations.insert qualified operation
    operationPlugins := r.operationPlugins.insert qualified plugin
    aliases := r.aliases.insert operation.name
      (if operation.name ∈ r.aliases then none else some qualified) }

/-- `operations_by_id` in `register`. -/
def operationsById (plugin : PluginMetadata) : AList fun _ : Int => OperationMetadata :=
  plugin.operations.foldl (fun byId operation => byId.insert operation.operationId operation) ∅

/-- `register`: the registry behind it, and what it raises. -/
def register (r : Registry) (plugin : PluginMetadata) : Registry × Except RegistryError Unit :=
  if plugin.name ∈ r.plugins then (r, .error (.alreadyRegistered plugin.name))
  else
    let r := { r with plugins := r.plugins.insert plugin.name plugin }
    let r := plugin.operations.foldl (fun r operation =>
      r.registerOperation plugin.name operation) r
    ({ r with operationIds := r.operationIds.insert plugin.name (operationsById plugin) }, .ok ())

/-- Registrations one after the other, up to the first one that raises. -/
def registerAll (r : Registry) : List PluginMetadata → Registry × Except RegistryError Unit
  | [] => (r, .ok ())
  | plugin :: plugins =>
    match r.register plugin with
    | (r, .ok ()) => r.registerAll plugins
    | (r, .error e) => (r, .error e)

/-- `_resolve_name`. -/
def resolveName (r : Registry) (name : String) : Except RegistryError String :=
  if hasDot name then .ok name
  else
    match r.aliases.lookup name with
    | none => .error (.notRegistered name)
    | some none => .error (.ambiguous name (sorted (r.operations.keys.filter fun item =>
        decide ('.' :: name.toList <:+ item.toList))))
    | some (some qualified) => .ok qualified

/-- `operation`. -/
def operation (r : Registry) (name : String) : Except RegistryError OperationMetadata := do
  let qualified ← r.resolveName name
  match r.operations.lookup qualified with
  | some operation => return operation
  | none => throw (.notRegistered name)

/-- `plugin_for_operation`. -/
def pluginForOperation (r : Registry) (name : String) : Except RegistryError String := do
  let qualified ← r.resolveName name
  match r.operationPlugins.lookup qualified with
  | some plugin => return plugin
  | none => throw (.notRegistered name)

/-- `operation_names`. Every qualified name of an alias is a key of `_operations`
(`Indexed.alias_registered`). -/
def operationNames (r : Registry) : List String :=
  sorted (r.aliases.keys.filter fun name =>
    match r.aliases.lookup name with
    | some (some qualified) => (r.operations.lookup qualified).any fun operation =>
        !operation.internal
    | _ => false)

/-- `qualified_operation_names`. -/
def qualifiedOperationNames (r : Registry) : List String :=
  sorted (r.operations.keys.filter fun name =>
    (r.operations.lookup name).any fun operation => !operation.internal)

/-- `plugin_names`. -/
def pluginNames (r : Registry) : List String := sorted r.plugins.keys

/-- `plugin`. -/
def plugin (r : Registry) (name : String) : Except RegistryError PluginMetadata :=
  match r.plugins.lookup name with
  | some plugin => .ok plugin
  | none => .error (.pluginNotRegistered name)

/-- `operation_by_id`. -/
def operationById (r : Registry) (plugin : String) (operationId : Int) :
    Except RegistryError OperationMetadata :=
  match (r.operationIds.lookup plugin).bind fun byId => byId.lookup operationId with
  | some operation => .ok operation
  | none => .error (.idNotRegistered operationId plugin)

end Registry

/-! ### Names -/

/-- The last dot splits a qualified name. -/
theorem qualifiedName_inj {plugin plugin' name name' : String} (hname : hasDot name = false)
    (hname' : hasDot name' = false) :
    qualifiedName plugin name = qualifiedName plugin' name' ↔ plugin = plugin' ∧ name = name' := by
  rw [hasDot, decide_eq_false_iff_not] at hname hname'
  -- No text continues a plugin with a dot and a name that has one.
  have hlonger : ∀ {front front' back back' : List Char}, '.' ∉ back →
      ∀ middle, front' = front ++ middle → front ++ '.' :: back = front' ++ '.' :: back' →
        middle = [] := by
    intro front front' back back' hback middle hfront heq
    rw [hfront, List.append_assoc, List.append_cancel_left_eq] at heq
    cases middle with
    | nil => rfl
    | cons first middle =>
      rw [List.cons_append, List.cons.injEq] at heq
      rw [heq.2] at hback
      simp at hback
  constructor
  · intro heq
    have heq : plugin.toList ++ '.' :: name.toList = plugin'.toList ++ '.' :: name'.toList := by
      have hlist := congrArg String.toList heq
      simpa [qualifiedName, String.toList_append] using hlist
    have hplugin : plugin.toList = plugin'.toList := by
      rcases List.append_eq_append_iff.mp heq with ⟨middle, hfront, _⟩ | ⟨middle, hfront, _⟩
      · rw [hlonger hname middle hfront heq, List.append_nil] at hfront
        exact hfront.symm
      · rw [hlonger hname' middle hfront heq.symm, List.append_nil] at hfront
        exact hfront
    rw [hplugin, List.append_cancel_left_eq, List.cons.injEq] at heq
    exact ⟨String.toList_inj.mp hplugin, String.toList_inj.mp heq.2⟩
  · rintro ⟨rfl, rfl⟩
    rfl

/-- A qualified name has a dot. -/
theorem hasDot_qualifiedName (plugin name : String) : hasDot (qualifiedName plugin name) = true := by
  rw [hasDot, decide_eq_true_iff, qualifiedName, String.toList_append, String.toList_append]
  simp

/-! ### What the dictionaries have -/

/-- A declaration: the name of a plugin, and an operation. -/
abbrev Declaration : Type := String × OperationMetadata

/-- The qualified name of a declaration. -/
def Declaration.qualified (declaration : Declaration) : String :=
  qualifiedName declaration.1 declaration.2.name

/-- The declarations of plugins, in the order of their registration. -/
def declarations (plugins : List PluginMetadata) : List Declaration :=
  plugins.flatMap fun plugin => plugin.operations.map fun operation => (plugin.name, operation)

/-- The entry of `_aliases` for a name with these declarations. -/
def aliasOf : List Declaration → Option (Option String)
  | [] => none
  | [declaration] => some (some declaration.qualified)
  | _ :: _ :: _ => some none

/-- The declarations of a name. -/
def declaring (declared : List Declaration) (name : String) : List Declaration :=
  declared.filter fun declaration => declaration.2.name = name

/-- The dictionaries have these declarations. -/
structure Indexed (declared : List Declaration) (r : Registry) : Prop where
  operations : ∀ key operation, r.operations.lookup key = some operation ↔
    ∃ declaration ∈ declared, declaration.qualified = key ∧ declaration.2 = operation
  owners : ∀ key plugin, r.operationPlugins.lookup key = some plugin ↔
    ∃ declaration ∈ declared, declaration.qualified = key ∧ declaration.1 = plugin
  aliases : ∀ name, r.aliases.lookup name = aliasOf (declaring declared name)

/-- A name without a declaration has no entry. -/
theorem aliasOf_eq_none_iff {declared : List Declaration} : aliasOf declared = none ↔ declared = [] := by
  cases declared with
  | nil => simp [aliasOf]
  | cons first rest => cases rest <;> simp [aliasOf]

/-- The dictionaries of a new registry. -/
theorem indexed_empty : Indexed [] Registry.empty := by
  constructor
  · intro key operation
    simp [Registry.empty]
  · intro key plugin
    simp [Registry.empty]
  · intro name
    simp [Registry.empty, declaring, aliasOf]

/-- A dictionary that has an entry for each item of a list has one more for a new item. -/
theorem lookup_insert_iff {ι β : Type} {key : ι → String} {value : ι → β} {m : Dictionary β}
    {items : List ι} {item : ι}
    (h : ∀ k b, m.lookup k = some b ↔ ∃ other ∈ items, key other = k ∧ value other = b)
    (hfresh : ∀ other ∈ items, key other ≠ key item) (k : String) (b : β) :
    (m.insert (key item) (value item)).lookup k = some b ↔
      ∃ other ∈ items ++ [item], key other = k ∧ value other = b := by
  simp only [List.mem_append, List.mem_singleton]
  by_cases hkey : k = key item
  · subst hkey
    rw [AList.lookup_insert, Option.some.injEq]
    constructor
    · intro heq
      exact ⟨item, Or.inr rfl, rfl, heq⟩
    · rintro ⟨other, hmem | rfl, hsame, heq⟩
      · exact absurd hsame (hfresh other hmem)
      · exact heq
  · rw [AList.lookup_insert_ne hkey, h]
    constructor
    · rintro ⟨other, hmem, hsame, heq⟩
      exact ⟨other, Or.inl hmem, hsame, heq⟩
    · rintro ⟨other, hmem | rfl, hsame, heq⟩
      · exact ⟨other, hmem, hsame, heq⟩
      · exact absurd hsame.symm hkey

/-- An iteration of the loop adds a declaration with a new qualified name. -/
theorem Indexed.registerOperation {declared : List Declaration} {r : Registry}
    (h : Indexed declared r) {declaration : Declaration}
    (hfresh : ∀ other ∈ declared, other.qualified ≠ declaration.qualified) :
    Indexed (declared ++ [declaration]) (r.registerOperation declaration.1 declaration.2) := by
  constructor
  · exact lookup_insert_iff h.operations hfresh
  · exact lookup_insert_iff h.owners hfresh
  · intro name
    show AList.lookup name (r.aliases.insert declaration.2.name _) = _
    rw [declaring, List.filter_append]
    by_cases hname : name = declaration.2.name
    · -- The entry is new, or it becomes `None`.
      subst hname
      have hmem : declaration.2.name ∈ r.aliases ↔
          declaring declared declaration.2.name ≠ [] := by
        rw [← AList.lookup_isSome, h.aliases, ← Option.ne_none_iff_isSome, ne_eq,
          aliasOf_eq_none_iff]
      rw [AList.lookup_insert]
      simp only [hmem, List.filter_singleton, decide_true]
      show _ = aliasOf (declaring declared declaration.2.name ++ [declaration])
      cases declaring declared declaration.2.name with
      | nil => rfl
      | cons first rest =>
        cases rest <;> rfl
    · rw [AList.lookup_insert_ne hname, h.aliases, List.filter_singleton,
        decide_eq_false (Ne.symm hname), cond_false, List.append_nil]
      rfl

/-- The loop of `register` adds the declarations of the plugin. -/
theorem Indexed.registerOperations {plugin : String} {operations : List OperationMetadata}
    {declared : List Declaration} {r : Registry} (h : Indexed declared r)
    (hfresh : ((declared ++ operations.map fun operation => (plugin, operation)).map
      Declaration.qualified).Nodup) :
    Indexed (declared ++ operations.map fun operation => (plugin, operation))
      (operations.foldl (fun r operation => r.registerOperation plugin operation) r) := by
  induction operations generalizing declared r with
  | nil =>
    rw [List.map_nil, List.append_nil]
    exact h
  | cons operation operations ih =>
    rw [List.map_cons, ← List.singleton_append, ← List.append_assoc] at hfresh ⊢
    apply ih
    · apply h.registerOperation
      intro other hother hsame
      rw [List.map_append, List.map_append] at hfresh
      have hapart := (List.nodup_append.mp hfresh.of_append_left).2.2
      exact hapart _ (List.mem_map_of_mem hother) _ (by simp) hsame
    · exact hfresh

/-! ### Sequences of registrations -/

/-- Plugins with one name each, whose operations have names without a dot. The names of the
operations of one plugin are distinct by its type. -/
structure Registrable (plugins : List PluginMetadata) : Prop where
  distinct : (plugins.map PluginMetadata.name).Nodup
  undotted : ∀ plugin ∈ plugins, ∀ operation ∈ plugin.operations, hasDot operation.name = false

/-- The declarations are the operations of the plugins. -/
theorem mem_declarations {plugins : List PluginMetadata} {declaration : Declaration} :
    declaration ∈ declarations plugins ↔
      ∃ plugin ∈ plugins, plugin.name = declaration.1 ∧ declaration.2 ∈ plugin.operations := by
  simp only [declarations, List.mem_flatMap, List.mem_map]
  constructor
  · rintro ⟨plugin, hplugin, operation, hoperation, rfl⟩
    exact ⟨plugin, hplugin, rfl, hoperation⟩
  · intro ⟨plugin, hplugin, hname, hoperation⟩
    exact ⟨plugin, hplugin, declaration.2, hoperation, by rw [hname]⟩

/-- The declarations have distinct qualified names. -/
theorem Registrable.nodup {plugins : List PluginMetadata} (h : Registrable plugins) :
    ((declarations plugins).map Declaration.qualified).Nodup := by
  obtain ⟨hdistinct, hundotted⟩ := h
  induction plugins with
  | nil => exact List.nodup_nil
  | cons plugin plugins ih =>
    rw [List.map_cons, List.nodup_cons] at hdistinct
    rw [List.forall_mem_cons] at hundotted
    have hsplit : declarations (plugin :: plugins) =
        (plugin.operations.map fun operation => (plugin.name, operation)) ++
          declarations plugins := rfl
    rw [hsplit, List.map_append, List.nodup_append, List.map_map]
    refine ⟨?_, ih hdistinct.2 hundotted.2, ?_⟩
    · apply (List.Nodup.of_map _ plugin.distinct).map_on
      intro operation hoperation other hother heq
      have hnames := (qualifiedName_inj (hundotted.1 operation hoperation)
        (hundotted.1 other hother)).mp heq
      exact List.inj_on_of_nodup_map plugin.distinct hoperation hother hnames.2
    · intro key hkey other hother heq
      rw [List.mem_map] at hkey hother
      obtain ⟨operation, hoperation, rfl⟩ := hkey
      obtain ⟨declaration, hdeclaration, rfl⟩ := hother
      obtain ⟨owner, howner, hname, hmem⟩ := mem_declarations.mp hdeclaration
      have hnames := (qualifiedName_inj (hundotted.1 operation hoperation)
        (hundotted.2 owner howner declaration.2 hmem)).mp heq
      have howned : plugin.name = owner.name := hnames.1.trans hname.symm
      exact hdistinct.1 (howned ▸ List.mem_map_of_mem howner)

/-- A registry in which these plugins have been registered. -/
structure Registered (items : List PluginMetadata) (r : Registry) : Prop where
  indexed : Indexed (declarations items) r
  plugins : ∀ name plugin, r.plugins.lookup name = some plugin ↔
    ∃ other ∈ items, other.name = name ∧ other = plugin
  operationIds : ∀ name byId, r.operationIds.lookup name = some byId ↔
    ∃ other ∈ items, other.name = name ∧ Registry.operationsById other = byId

/-- In a new registry nothing is registered. -/
theorem registered_empty : Registered [] Registry.empty := by
  refine ⟨indexed_empty, ?_, ?_⟩
  · intro name plugin
    simp [Registry.empty]
  · intro name byId
    simp [Registry.empty]

/-- The names that are taken are those of the plugins. -/
theorem Registered.mem_plugins {plugins : List PluginMetadata} {r : Registry}
    (h : Registered plugins r) {name : String} :
    name ∈ r.plugins ↔ name ∈ plugins.map PluginMetadata.name := by
  rw [← AList.lookup_isSome, Option.isSome_iff_exists, List.mem_map]
  constructor
  · intro ⟨plugin, hplugin⟩
    obtain ⟨other, hother, hname, _⟩ := (h.plugins name plugin).mp hplugin
    exact ⟨other, hother, hname⟩
  · intro ⟨plugin, hplugin, hname⟩
    exact ⟨plugin, (h.plugins name plugin).mpr ⟨plugin, hplugin, hname, rfl⟩⟩

/-- The loop of `register` does not touch the other dictionaries. -/
theorem registerOperations_eq (plugin : String) (operations : List OperationMetadata)
    (r : Registry) :
    (operations.foldl (fun r operation => r.registerOperation plugin operation) r).plugins =
        r.plugins ∧
      (operations.foldl (fun r operation => r.registerOperation plugin operation) r).operationIds =
        r.operationIds := by
  induction operations generalizing r with
  | nil => exact ⟨rfl, rfl⟩
  | cons operation operations ih => exact ih _

/-- A registration of a new plugin is accepted. -/
theorem Registered.register {plugins : List PluginMetadata} {r : Registry}
    (h : Registered plugins r) {plugin : PluginMetadata}
    (hregistrable : Registrable (plugins ++ [plugin])) :
    (r.register plugin).2 = .ok () ∧
      Registered (plugins ++ [plugin]) (r.register plugin).1 := by
  have hfresh : ∀ other ∈ plugins, other.name ≠ plugin.name := by
    have hdistinct := hregistrable.distinct
    rw [List.map_append, List.nodup_append] at hdistinct
    intro other hother
    exact hdistinct.2.2 _ (List.mem_map_of_mem hother) _ (by simp)
  have hnew : plugin.name ∉ r.plugins := by
    rw [h.mem_plugins, List.mem_map]
    intro ⟨other, hother, hname⟩
    exact hfresh other hother hname
  have hsplit : declarations (plugins ++ [plugin]) = declarations plugins ++
      plugin.operations.map fun operation => (plugin.name, operation) := by
    simp [declarations]
  have hnodup := hregistrable.nodup
  rw [hsplit] at hnodup
  let start : Registry := { r with plugins := r.plugins.insert plugin.name plugin }
  have hstart : Indexed (declarations plugins) start :=
    ⟨h.indexed.operations, h.indexed.owners, h.indexed.aliases⟩
  have hloop := hstart.registerOperations hnodup
  have hframe := registerOperations_eq plugin.name plugin.operations start
  rw [Registry.register, if_neg hnew]
  refine ⟨rfl, ?_, ?_, ?_⟩
  · rw [hsplit]
    exact ⟨hloop.operations, hloop.owners, hloop.aliases⟩
  · show ∀ name other, AList.lookup name (Registry.plugins (plugin.operations.foldl _ start)) = _ ↔ _
    rw [hframe.1]
    exact lookup_insert_iff h.plugins hfresh
  · show ∀ name byId, AList.lookup name (AList.insert plugin.name _
      (Registry.operationIds (plugin.operations.foldl _ start))) = _ ↔ _
    rw [hframe.2]
    exact lookup_insert_iff h.operationIds hfresh

/-- What a sequence of registrations leaves in the dictionaries. -/
theorem registered_registerAll {front plugins : List PluginMetadata} {r : Registry}
    (h : Registered front r) (hregistrable : Registrable (front ++ plugins)) :
    (r.registerAll plugins).2 = .ok () ∧
      Registered (front ++ plugins) (r.registerAll plugins).1 := by
  induction plugins generalizing front r with
  | nil =>
    rw [List.append_nil]
    exact ⟨rfl, h⟩
  | cons plugin plugins ih =>
    rw [← List.singleton_append, ← List.append_assoc] at hregistrable ⊢
    have hfirst : Registrable (front ++ [plugin]) := by
      constructor
      · have hdistinct := hregistrable.distinct
        rw [List.map_append] at hdistinct
        exact hdistinct.of_append_left
      · intro other hother
        exact hregistrable.undotted other (List.mem_append_left _ hother)
    obtain ⟨haccepted, hregistered⟩ := h.register hfirst
    have hstep : r.registerAll (plugin :: plugins) = (r.register plugin).1.registerAll plugins := by
      rw [Registry.registerAll]
      split
      · rename_i r' heq
        rw [heq]
      · rename_i r' e heq
        rw [heq] at haccepted
        cases haccepted
    show (r.registerAll (plugin :: plugins)).2 = _ ∧
      Registered _ (r.registerAll (plugin :: plugins)).1
    rw [hstep]
    exact ih hregistered hregistrable

/-! ### Answers -/

/-- One plugin alone declares an operation of the name, and this is the operation. -/
structure SoleDeclaration (plugins : List PluginMetadata) (name : String)
    (plugin : PluginMetadata) (operation : OperationMetadata) : Prop where
  registered : plugin ∈ plugins
  declared : operation ∈ plugin.operations
  named : operation.name = name
  sole : ∀ other ∈ plugins, ∀ declaration ∈ other.operations, declaration.name = name →
    other = plugin

/-- A name is resolved when it has one declaration. -/
theorem aliasOf_eq_some_iff {declared : List Declaration} {qualified : String} :
    aliasOf declared = some (some qualified) ↔
      ∃ declaration, declared = [declaration] ∧ declaration.qualified = qualified := by
  cases declared with
  | nil => simp [aliasOf]
  | cons first rest => cases rest <;> simp [aliasOf]

/-- Distinct elements that are all equal to one of them. -/
theorem eq_singleton_of_nodup {α : Type} {items : List α} {item : α} (hnodup : items.Nodup)
    (hmem : item ∈ items) (hall : ∀ other ∈ items, other = item) : items = [item] := by
  cases items with
  | nil => cases hmem
  | cons first rest =>
    rw [List.nodup_cons] at hnodup
    obtain rfl := hall first List.mem_cons_self
    cases rest with
    | nil => rfl
    | cons second rest =>
      have hsecond := hall second (List.mem_cons_of_mem _ List.mem_cons_self)
      exact absurd (hsecond ▸ List.mem_cons_self) hnodup.1

section
variable {plugins : List PluginMetadata} {r : Registry}

/-- One declaration is left exactly when one plugin has it alone. -/
theorem declaring_eq_singleton_iff (hregistrable : Registrable plugins) {name : String}
    {declaration : Declaration} :
    declaring (declarations plugins) name = [declaration] ↔
      ∃ plugin, SoleDeclaration plugins name plugin declaration.2 ∧
        plugin.name = declaration.1 := by
  have hdeclaring : ∀ other, other ∈ declaring (declarations plugins) name ↔
      other ∈ declarations plugins ∧ other.2.name = name := by
    intro other
    rw [declaring, List.mem_filter, decide_eq_true_iff]
  constructor
  · intro hone
    have hmem := (hdeclaring declaration).mp (by rw [hone]; exact List.mem_singleton_self _)
    obtain ⟨plugin, hplugin, howner, hoperation⟩ := mem_declarations.mp hmem.1
    refine ⟨plugin, ⟨hplugin, hoperation, hmem.2, ?_⟩, howner⟩
    intro other hother operation hdeclared hname
    have hsame : (other.name, operation) ∈ declaring (declarations plugins) name :=
      (hdeclaring _).mpr ⟨mem_declarations.mpr ⟨other, hother, rfl, hdeclared⟩, hname⟩
    rw [hone, List.mem_singleton] at hsame
    apply List.inj_on_of_nodup_map hregistrable.distinct hother hplugin
    rw [howner, ← hsame]
  · intro ⟨plugin, hsole, howner⟩
    have hnodup : (declaring (declarations plugins) name).Nodup :=
      (List.Nodup.of_map _ hregistrable.nodup).filter _
    apply eq_singleton_of_nodup hnodup
    · exact (hdeclaring declaration).mpr
        ⟨mem_declarations.mpr ⟨plugin, hsole.registered, howner, hsole.declared⟩, hsole.named⟩
    · intro other hother
      obtain ⟨hmem, hname⟩ := (hdeclaring other).mp hother
      obtain ⟨owner, howner', hownerName, hoperation⟩ := mem_declarations.mp hmem
      obtain rfl := hsole.sole owner howner' other.2 hoperation hname
      have hsame : other.2 = declaration.2 :=
        List.inj_on_of_nodup_map owner.distinct hoperation hsole.declared
          (hname.trans hsole.named.symm)
      exact Prod.ext (hownerName.symm.trans howner) hsame

/-- The entries of `_aliases` that have a qualified name. -/
theorem Registered.alias_iff (h : Registered plugins r) (hregistrable : Registrable plugins)
    {name qualified : String} : r.aliases.lookup name = some (some qualified) ↔
      ∃ plugin operation, SoleDeclaration plugins name plugin operation ∧
        qualifiedName plugin.name name = qualified := by
  rw [h.indexed.aliases, aliasOf_eq_some_iff]
  constructor
  · intro ⟨declaration, hone, hqualified⟩
    obtain ⟨plugin, hsole, howner⟩ := (declaring_eq_singleton_iff hregistrable).mp hone
    refine ⟨plugin, declaration.2, hsole, ?_⟩
    rw [howner, ← hsole.named]
    exact hqualified
  · intro ⟨plugin, operation, hsole, hqualified⟩
    refine ⟨(plugin.name, operation),
      (declaring_eq_singleton_iff hregistrable).mpr ⟨plugin, hsole, rfl⟩, ?_⟩
    rw [← hqualified, ← hsole.named]
    rfl

/-- What a qualified name stands for. -/
theorem Registered.lookup_qualified (h : Registered plugins r) {plugin : PluginMetadata}
    {operation : OperationMetadata}
    (hplugin : plugin ∈ plugins) (hoperation : operation ∈ plugin.operations) :
    r.operations.lookup (qualifiedName plugin.name operation.name) = some operation ∧
      r.operationPlugins.lookup (qualifiedName plugin.name operation.name) = some plugin.name := by
  have hmem : (plugin.name, operation) ∈ declarations plugins :=
    mem_declarations.mpr ⟨plugin, hplugin, rfl, hoperation⟩
  constructor
  · exact (h.indexed.operations _ _).mpr ⟨_, hmem, rfl, rfl⟩
  · exact (h.indexed.owners _ _).mpr ⟨_, hmem, rfl, rfl⟩

/-- A qualified name is not resolved further. -/
theorem Registry.resolveName_of_hasDot {name : String} (h : hasDot name = true) :
    r.resolveName name = .ok name := by
  rw [Registry.resolveName, if_pos h]

/-- A qualified name is resolved to its own declaration. -/
theorem Registered.operation_qualified (h : Registered plugins r) {plugin : PluginMetadata}
    {operation : OperationMetadata}
    (hplugin : plugin ∈ plugins) (hoperation : operation ∈ plugin.operations) :
    r.operation (qualifiedName plugin.name operation.name) = .ok operation ∧
      r.pluginForOperation (qualifiedName plugin.name operation.name) = .ok plugin.name := by
  obtain ⟨hlookup, howner⟩ := h.lookup_qualified hplugin hoperation
  rw [Registry.operation, Registry.pluginForOperation,
    Registry.resolveName_of_hasDot (hasDot_qualifiedName _ _), Lib.Result.ok_bind,
    Lib.Result.ok_bind, hlookup, howner]
  exact ⟨rfl, rfl⟩

/-- A short name is resolved when one plugin alone declares it. -/
theorem Registered.operation_short (h : Registered plugins r) (hregistrable : Registrable plugins)
    {name : String} (hname : hasDot name = false) :
    (∀ operation, r.operation name = .ok operation ↔
      ∃ plugin, SoleDeclaration plugins name plugin operation) ∧
    ∀ owner, r.pluginForOperation name = .ok owner ↔
      ∃ plugin operation, SoleDeclaration plugins name plugin operation ∧ plugin.name = owner := by
  have hdot : ¬ hasDot name = true := by
    rw [hname]
    decide
  have hsame : ∀ {plugin plugin' : PluginMetadata} {operation operation' : OperationMetadata},
      SoleDeclaration plugins name plugin operation →
        SoleDeclaration plugins name plugin' operation' →
          plugin = plugin' ∧ operation = operation' := by
    intro plugin plugin' operation operation' hsole hsole'
    obtain rfl := hsole'.sole plugin hsole.registered operation hsole.declared hsole.named
    exact ⟨rfl, List.inj_on_of_nodup_map plugin.distinct hsole.declared hsole'.declared
      (hsole.named.trans hsole'.named.symm)⟩
  by_cases hany : ∃ plugin operation, SoleDeclaration plugins name plugin operation
  · obtain ⟨plugin, operation, hsole⟩ := hany
    have halias := (h.alias_iff hregistrable).mpr ⟨plugin, operation, hsole, rfl⟩
    obtain ⟨hlookup, howner⟩ := h.lookup_qualified hsole.registered hsole.declared
    rw [hsole.named] at hlookup howner
    have hresolved : r.resolveName name = .ok (qualifiedName plugin.name name) := by
      rw [Registry.resolveName, if_neg hdot, halias]
    have hanswer : r.operation name = .ok operation := by
      rw [Registry.operation, hresolved, Lib.Result.ok_bind, hlookup]
      rfl
    have hplugin : r.pluginForOperation name = .ok plugin.name := by
      rw [Registry.pluginForOperation, hresolved, Lib.Result.ok_bind, howner]
      rfl
    constructor
    · intro other
      rw [hanswer, Except.ok.injEq]
      constructor
      · rintro rfl
        exact ⟨plugin, hsole⟩
      · intro ⟨_, hother⟩
        exact (hsame hsole hother).2
    · intro owner
      rw [hplugin, Except.ok.injEq]
      constructor
      · rintro rfl
        exact ⟨plugin, operation, hsole, rfl⟩
      · rintro ⟨_, _, hother, rfl⟩
        rw [(hsame hsole hother).1]
  · -- The name has no entry, or its entry is `None`, and both methods raise.
    have hraises : ∃ e, r.resolveName name = .error e := by
      rw [Registry.resolveName, if_neg hdot]
      cases halias : r.aliases.lookup name with
      | none => exact ⟨_, rfl⟩
      | some entry =>
        cases entry with
        | none => exact ⟨_, rfl⟩
        | some qualified =>
          obtain ⟨plugin, operation, hsole, _⟩ := (h.alias_iff hregistrable).mp halias
          exact absurd ⟨plugin, operation, hsole⟩ hany
    obtain ⟨e, he⟩ := hraises
    constructor
    · intro operation
      rw [Registry.operation, he]
      constructor
      · intro hfalse
        cases hfalse
      · intro ⟨plugin, hsole⟩
        exact absurd ⟨plugin, operation, hsole⟩ hany
    · intro owner
      rw [Registry.pluginForOperation, he]
      constructor
      · intro hfalse
        cases hfalse
      · intro ⟨plugin, operation, hsole, _⟩
        exact absurd ⟨plugin, operation, hsole⟩ hany

/-- Every alias has its operation. -/
theorem Registered.alias_registered (h : Registered plugins r)
    (hregistrable : Registrable plugins) {name qualified : String}
    (halias : r.aliases.lookup name = some (some qualified)) :
    ∃ operation, r.operations.lookup qualified = some operation := by
  obtain ⟨plugin, operation, hsole, rfl⟩ := (h.alias_iff hregistrable).mp halias
  exact ⟨operation, hsole.named ▸ (h.lookup_qualified hsole.registered hsole.declared).1⟩

/-- `sorted` sorts. -/
theorem sorted_pairwise {names : List String} (h : names.Nodup) :
    (sorted names).Pairwise (· < ·) := by
  have hle := List.pairwise_insertionSort (· ≤ · : String → String → Prop) names
  have hne : (sorted names).Nodup := (List.perm_insertionSort _ names).nodup_iff.mpr h
  exact (hle.and hne).imp fun hboth => lt_of_le_of_ne hboth.1 hboth.2

/-- Sorting keeps the names. -/
theorem mem_sorted {names : List String} {name : String} : name ∈ sorted names ↔ name ∈ names :=
  List.mem_insertionSort _

/-- `operation_names` has the short names that are resolved to an operation that is not internal. -/
theorem Registered.mem_operationNames (h : Registered plugins r)
    (hregistrable : Registrable plugins) {name : String} :
    name ∈ r.operationNames ↔ hasDot name = false ∧
      ∃ operation, r.operation name = .ok operation ∧ operation.internal = false := by
  rw [Registry.operationNames, mem_sorted, List.mem_filter]
  constructor
  · intro ⟨_, hpublic⟩
    cases halias : r.aliases.lookup name with
    | none => simp [halias] at hpublic
    | some entry =>
      cases entry with
      | none => simp [halias] at hpublic
      | some qualified =>
        obtain ⟨plugin, operation, hsole, rfl⟩ := (h.alias_iff hregistrable).mp halias
        have hname : hasDot name = false :=
          hsole.named ▸ hregistrable.undotted plugin hsole.registered operation hsole.declared
        have hlookup := (h.lookup_qualified hsole.registered hsole.declared).1
        rw [hsole.named] at hlookup
        refine ⟨hname, operation,
          ((h.operation_short hregistrable hname).1 operation).mpr ⟨plugin, hsole⟩, ?_⟩
        simpa [halias, hlookup] using hpublic
  · intro ⟨hname, operation, hanswer, hinternal⟩
    obtain ⟨plugin, hsole⟩ := ((h.operation_short hregistrable hname).1 operation).mp hanswer
    have halias := (h.alias_iff hregistrable).mpr ⟨plugin, operation, hsole, rfl⟩
    have hlookup := (h.lookup_qualified hsole.registered hsole.declared).1
    rw [hsole.named] at hlookup
    constructor
    · rw [← AList.mem_keys, ← AList.lookup_isSome, halias]
      rfl
    · simp [halias, hlookup, hinternal]

end

/-! ### The order of the registrations -/

/-- A sorted selection of the keys depends on the entries only. -/
theorem sorted_keys_congr {β : Type} {m m' : Dictionary β}
    (h : ∀ key, m.lookup key = m'.lookup key) {p p' : String → Bool} (hp : ∀ key, p key = p' key) :
    sorted (m.keys.filter p) = sorted (m'.keys.filter p') := by
  have hkeys : ∀ key, key ∈ m.keys ↔ key ∈ m'.keys := by
    intro key
    rw [← AList.mem_keys, ← AList.mem_keys, ← AList.lookup_isSome, ← AList.lookup_isSome, h]
  have hperm : (m.keys.filter p).Perm (m'.keys.filter p') := by
    rw [List.perm_ext_iff_of_nodup (m.keys_nodup.filter _) (m'.keys_nodup.filter _)]
    intro key
    rw [List.mem_filter, List.mem_filter, hkeys, hp]
  have hsorted : (sorted (m.keys.filter p)).Perm (sorted (m'.keys.filter p')) :=
    ((List.perm_insertionSort _ _).trans hperm).trans (List.perm_insertionSort _ _).symm
  exact hsorted.eq_of_pairwise' (List.pairwise_insertionSort _ _)
    (List.pairwise_insertionSort _ _)

/-- The entry does not depend on the order. -/
theorem aliasOf_perm {declared declared' : List Declaration} (h : declared.Perm declared') :
    aliasOf declared = aliasOf declared' := by
  cases declared with
  | nil => rw [List.nil_perm.mp h]
  | cons first rest =>
    cases rest with
    | nil => rw [List.singleton_perm.mp h]
    | cons second rest =>
      have hlength := h.length_eq
      cases declared' with
      | nil => cases hlength
      | cons first' rest' =>
        cases rest' with
        | nil => cases hlength
        | cons => rfl

/-- Two registries that nobody can tell apart. -/
structure SameAnswers (r r' : Registry) : Prop where
  operation : ∀ name, r.operation name = r'.operation name
  pluginForOperation : ∀ name, r.pluginForOperation name = r'.pluginForOperation name
  operationNames : r.operationNames = r'.operationNames
  qualifiedOperationNames : r.qualifiedOperationNames = r'.qualifiedOperationNames
  pluginNames : r.pluginNames = r'.pluginNames
  plugin : ∀ name, r.plugin name = r'.plugin name
  operationById : ∀ plugin operationId,
    r.operationById plugin operationId = r'.operationById plugin operationId

/-- Dictionaries with the same entries give the same answers. -/
theorem sameAnswers_of_lookup {r r' : Registry}
    (hoperations : ∀ key, r.operations.lookup key = r'.operations.lookup key)
    (howners : ∀ key, r.operationPlugins.lookup key = r'.operationPlugins.lookup key)
    (haliases : ∀ name, r.aliases.lookup name = r'.aliases.lookup name)
    (hplugins : ∀ name, r.plugins.lookup name = r'.plugins.lookup name)
    (hids : ∀ name, r.operationIds.lookup name = r'.operationIds.lookup name) :
    SameAnswers r r' := by
  have hresolve : ∀ name, r.resolveName name = r'.resolveName name := by
    intro name
    rw [Registry.resolveName, Registry.resolveName, haliases,
      sorted_keys_congr hoperations fun _ => rfl]
  constructor
  · intro name
    rw [Registry.operation, Registry.operation, hresolve]
    simp only [hoperations]
  · intro name
    rw [Registry.pluginForOperation, Registry.pluginForOperation, hresolve]
    simp only [howners]
  · apply sorted_keys_congr haliases
    intro name
    simp only [haliases, hoperations]
  · apply sorted_keys_congr hoperations
    intro name
    rw [hoperations]
  · have hall : sorted (r.plugins.keys.filter fun _ => true) =
        sorted (r'.plugins.keys.filter fun _ => true) := sorted_keys_congr hplugins fun _ => rfl
    rw [List.filter_true, List.filter_true] at hall
    exact hall
  · intro name
    rw [Registry.plugin, Registry.plugin, hplugins]
  · intro plugin operationId
    rw [Registry.operationById, Registry.operationById, hids]

/-- The order of the registrations does not matter. -/
theorem Registered.sameAnswers {plugins plugins' : List PluginMetadata} {r r' : Registry}
    (h : Registered plugins r) (h' : Registered plugins' r') (hperm : plugins.Perm plugins') :
    SameAnswers r r' := by
  have hdeclared : (declarations plugins).Perm (declarations plugins') := hperm.flatMap_right _
  apply sameAnswers_of_lookup
  · intro key
    apply Option.ext
    intro operation
    rw [h.indexed.operations, h'.indexed.operations]
    simp only [hdeclared.mem_iff]
  · intro key
    apply Option.ext
    intro plugin
    rw [h.indexed.owners, h'.indexed.owners]
    simp only [hdeclared.mem_iff]
  · intro name
    rw [h.indexed.aliases, h'.indexed.aliases]
    exact aliasOf_perm (hdeclared.filter _)
  · intro name
    apply Option.ext
    intro plugin
    rw [h.plugins, h'.plugins]
    simp only [hperm.mem_iff]
  · intro name
    apply Option.ext
    intro byId
    rw [h.operationIds, h'.operationIds]
    simp only [hperm.mem_iff]

/-- **The aliases.** Plugins with distinct names, whose operations have names without a dot, can be
registered in any order. Then a short name is resolved exactly when one plugin alone declares an
operation of that name, and to that operation. `operation_names` has those of them that are not
internal, sorted. A qualified name is resolved to its own declaration, a second registration under
a name is rejected and changes nothing, and every answer is the same for every order. -/
theorem alias_law (plugins : List PluginMetadata) (h : Registrable plugins) :
    let r := (Registry.empty.registerAll plugins).1
    (Registry.empty.registerAll plugins).2 = .ok () ∧
    (∀ name, hasDot name = false →
      (∀ operation, r.operation name = .ok operation ↔
        ∃ plugin, SoleDeclaration plugins name plugin operation) ∧
      ∀ owner, r.pluginForOperation name = .ok owner ↔
        ∃ plugin operation, SoleDeclaration plugins name plugin operation ∧
          plugin.name = owner) ∧
    (r.operationNames.Pairwise (· < ·) ∧
      ∀ name, name ∈ r.operationNames ↔ hasDot name = false ∧
        ∃ operation, r.operation name = .ok operation ∧ operation.internal = false) ∧
    (∀ plugin ∈ plugins, ∀ operation ∈ plugin.operations,
      r.operation (qualifiedName plugin.name operation.name) = .ok operation ∧
      r.pluginForOperation (qualifiedName plugin.name operation.name) = .ok plugin.name) ∧
    (∀ plugin, plugin.name ∈ plugins.map PluginMetadata.name →
      r.register plugin = (r, .error (.alreadyRegistered plugin.name))) ∧
    ∀ plugins', plugins.Perm plugins' →
      (Registry.empty.registerAll plugins').2 = .ok () ∧
        SameAnswers r (Registry.empty.registerAll plugins').1 := by
  intro r
  obtain ⟨haccepted, hregistered⟩ := registered_registerAll registered_empty h
  rw [List.nil_append] at hregistered
  refine ⟨haccepted, ?_, ⟨?_, ?_⟩, ?_, ?_, ?_⟩
  · intro name hname
    exact hregistered.operation_short h hname
  · exact sorted_pairwise (r.aliases.keys_nodup.filter _)
  · intro name
    exact hregistered.mem_operationNames h
  · intro plugin hplugin operation hoperation
    exact hregistered.operation_qualified hplugin hoperation
  · intro plugin hplugin
    rw [Registry.register, if_pos (hregistered.mem_plugins.mpr hplugin)]
  · intro plugins' hperm
    have h' : Registrable plugins' := by
      constructor
      · exact (hperm.map _).nodup_iff.mp h.distinct
      · intro plugin hplugin
        exact h.undotted plugin (hperm.mem_iff.mpr hplugin)
    obtain ⟨haccepted', hregistered'⟩ := registered_registerAll registered_empty h'
    rw [List.nil_append] at hregistered'
    exact ⟨haccepted', hregistered.sameAnswers hregistered' hperm⟩

/-- An operation without parameters. -/
def constantOperation (name : String) : OperationMetadata where
  name := name
  tensorInputs := []
  tensorOutputs := []
  scalarParameters := []
  operationId := 1
  outputPlans := []
  vjp := none
  internal := false

/-- A plugin with one operation. -/
def plugin (name operation : String) : PluginMetadata where
  name := name
  operations := [constantOperation operation]
  distinct := List.nodup_singleton _

/-- Three plugins, two of which declare one name. -/
def sharingPlugins : List PluginMetadata :=
  [plugin "first" "shared", plugin "second" "shared", plugin "third" "own"]

/-- The name of one declaration is resolved, the shared one is not, and both declarations of it
have their qualified names. -/
theorem alias_law_shared :
    let r := (Registry.empty.registerAll sharingPlugins).1
    r.operation "own" = .ok (constantOperation "own") ∧
      (∀ operation, r.operation "shared" ≠ .ok operation) ∧
      r.pluginForOperation (qualifiedName "first" "shared") = .ok "first" ∧
      r.pluginForOperation (qualifiedName "second" "shared") = .ok "second" := by
  intro r
  have hfirst : plugin "first" "shared" ∈ sharingPlugins := by simp [sharingPlugins]
  have hsecond : plugin "second" "shared" ∈ sharingPlugins := by simp [sharingPlugins]
  obtain ⟨-, hshort, -, hqualified, -⟩ := alias_law sharingPlugins
    ⟨by decide, by simp [sharingPlugins, plugin, constantOperation, hasDot]⟩
  refine ⟨?_, ?_, ?_, ?_⟩
  · apply ((hshort "own" (by simp [hasDot])).1 _).mpr
    refine ⟨plugin "third" "own", by simp [sharingPlugins], List.mem_singleton_self _, rfl, ?_⟩
    simp [sharingPlugins, plugin, constantOperation]
  · intro operation h
    obtain ⟨owner, hsole⟩ := ((hshort "shared" (by simp [hasDot])).1 operation).mp h
    have howner := (hsole.sole _ hfirst _ (List.mem_singleton_self _) rfl).trans
      (hsole.sole _ hsecond _ (List.mem_singleton_self _) rfl).symm
    have hnames : "first" = "second" := congrArg PluginMetadata.name howner
    exact absurd hnames (by decide)
  · exact (hqualified _ hfirst _ (List.mem_singleton_self _)).2
  · exact (hqualified _ hsecond _ (List.mem_singleton_self _)).2

/-! ### The list of plugins -/

/-- The text of a name. -/
def text : OperationName → String
  | .short name => name
  | .qualified plugin name => qualifiedName plugin name

/-- The name of the operation, without the plugin. -/
def shortName : OperationName → String
  | .short name => name
  | .qualified _ name => name

section
variable {registry : OperationRegistry}

/-- A plugin finds its operations by name. -/
theorem find_eq_some_iff {item : PluginMetadata} {name : String} {operation : OperationMetadata} :
    item.find name = some operation ↔ operation ∈ item.operations ∧ operation.name = name := by
  exact find?_eq_some_iff_of_nodup item.distinct

/-- The operation of a plugin in the list. -/
theorem lookup_eq_some_iff {plugin name : String} {operation : OperationMetadata} :
    registry.lookup plugin name = some operation ↔
      ∃ item ∈ registry.plugins, item.name = plugin ∧ operation ∈ item.operations ∧
        operation.name = name := by
  rw [OperationRegistry.lookup, Option.bind_eq_some_iff]
  have hitem (item : PluginMetadata) :
      (registry.plugins.find? fun other => other.name == plugin) = some item ↔
        item ∈ registry.plugins ∧ item.name = plugin :=
    find?_eq_some_iff_of_nodup registry.distinct
  constructor
  · intro ⟨item, hfound, hfind⟩
    obtain ⟨hmem, hname⟩ := (hitem item).mp hfound
    exact ⟨item, hmem, hname, find_eq_some_iff.mp hfind⟩
  · intro ⟨item, hmem, hname, hfind⟩
    exact ⟨item, (hitem item).mpr ⟨hmem, hname⟩, find_eq_some_iff.mpr hfind⟩

/-- A short name is resolved in the list of plugins when one of them alone declares it. -/
theorem operation_short_iff {name : String} {operation : OperationMetadata} :
    registry.operation (.short name) = some operation ↔
      ∃ plugin, SoleDeclaration registry.plugins name plugin operation := by
  have hdeclaring : ∀ item, item ∈ registry.declaring name ↔ item ∈ registry.plugins ∧
      ∃ operation ∈ item.operations, operation.name = name := by
    intro item
    rw [OperationRegistry.declaring, List.mem_filter, Option.isSome_iff_exists]
    simp only [find_eq_some_iff]
  have hone : ∀ plugin operation, SoleDeclaration registry.plugins name plugin operation ↔
      registry.declaring name = [plugin] ∧ operation ∈ plugin.operations ∧
        operation.name = name := by
    intro plugin operation
    constructor
    · intro hsole
      refine ⟨?_, hsole.declared, hsole.named⟩
      apply eq_singleton_of_nodup ((List.Nodup.of_map _ registry.distinct).filter _)
      · exact (hdeclaring plugin).mpr
          ⟨hsole.registered, operation, hsole.declared, hsole.named⟩
      · intro other hother
        obtain ⟨hmem, declaration, hdeclared, hname⟩ := (hdeclaring other).mp hother
        exact hsole.sole other hmem declaration hdeclared hname
    · rintro ⟨honly, hdeclared, hname⟩
      have hmem := (hdeclaring plugin).mp (by rw [honly]; exact List.mem_singleton_self _)
      refine ⟨hmem.1, hdeclared, hname, ?_⟩
      intro other hother declaration hdeclaration hsame
      have hlisted := (hdeclaring other).mpr ⟨hother, declaration, hdeclaration, hsame⟩
      rw [honly] at hlisted
      exact List.mem_singleton.mp hlisted
  simp only [hone, OperationRegistry.operation, OperationRegistry.resolveName]
  cases hlist : registry.declaring name with
  | nil => simp
  | cons plugin rest =>
    cases rest with
    | cons second rest => simp
    | nil =>
      have hmem := (hdeclaring plugin).mp (by rw [hlist]; exact List.mem_singleton_self _)
      show registry.lookup plugin.name name = some operation ↔ _
      rw [lookup_eq_some_iff]
      constructor
      · rintro ⟨item, hitem, hname, hfind⟩
        obtain rfl := List.inj_on_of_nodup_map registry.distinct hitem hmem.1 hname
        exact ⟨item, rfl, hfind⟩
      · rintro ⟨item, hitem, hfind⟩
        cases hitem
        exact ⟨plugin, hmem.1, rfl, hfind⟩

/-- The dictionaries and the list of plugins give the same answers. -/
theorem operation_refines (hundotted : ∀ plugin ∈ registry.plugins,
      ∀ operation ∈ plugin.operations, hasDot operation.name = false) {name : OperationName}
    (hname : hasDot (shortName name) = false) (operation : OperationMetadata) :
    (Registry.empty.registerAll registry.plugins).1.operation (text name) = .ok operation ↔
      registry.operation name = some operation := by
  have hregistrable : Registrable registry.plugins := ⟨registry.distinct, hundotted⟩
  have hregistered := (registered_registerAll registered_empty hregistrable).2
  rw [List.nil_append] at hregistered
  cases name with
  | qualified plugin name =>
    have hname : hasDot name = false := hname
    show _ ↔ registry.lookup plugin name = some operation
    rw [lookup_eq_some_iff, text]
    constructor
    · intro h
      rw [Registry.operation, Registry.resolveName_of_hasDot (hasDot_qualifiedName _ _),
        Lib.Result.ok_bind] at h
      split at h
      · rename_i found hfound
        cases h
        obtain ⟨declaration, hdeclaration, hqualified, rfl⟩ :=
          (hregistered.indexed.operations _ _).mp hfound
        obtain ⟨item, hitem, howner, hdeclared⟩ := mem_declarations.mp hdeclaration
        obtain ⟨hplugin, hshort⟩ :=
          (qualifiedName_inj (hundotted item hitem _ hdeclared) hname).mp hqualified
        exact ⟨item, hitem, howner.trans hplugin, hdeclared, hshort⟩
      · cases h
    · rintro ⟨item, hitem, rfl, hoperation, rfl⟩
      exact (hregistered.operation_qualified hitem hoperation).1
  | short name =>
    rw [operation_short_iff]
    exact (hregistered.operation_short hregistrable hname).1 operation

end

end Wmfs.Runtime.Dictionaries
