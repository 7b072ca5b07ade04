import Wmfs.Access.Engagement
import Wmfs.Memory.Liveness
import Wmfs.System.Model

/-!
# `Wmfs.System.Handover`: memory that a worker may still write

While a command is outstanding and its worker runs, the worker may write to the allocations
that the command names. `HandoverLaw` says that nobody else gets them: no other invocation is
granted an access that conflicts with the invocation's own one, and no other allocation gets
the memory.

The access lease covers the outstanding command when the invocation releases it after the
completion. The exception of a submission that fails leaves the `with` block too, and the lease
is released before `close` has stopped the worker. `deadline_hands_over_memory` is such a run.
`handoverLaw_of_reach` shows that this is the only way: the law holds in every run in which a
submission fails only after its worker has stopped.
-/

set_option autoImplicit false

namespace Wmfs.System

open Wmfs.Lib Wmfs.Memory

/-! ### The law -/

/-- A worker that runs may write to the buffers of the command: its completion has not been
received. -/
def State.outstanding (s : State) (id : Nat) (buffers : List SharedBuffer) : Prop :=
  (s.invocations id).command = some buffers ∧
    (s.sessions (s.invocations id).session).stopped = false

/-- The invocation only reads the buffer: it is an argument that the invocation has reserved
for reading. -/
def State.onlyReads (s : State) (id : Nat) (buffer : SharedBuffer) : Prop :=
  buffer ∉ (s.invocations id).own ∧ accessKey buffer ∈ (s.access.calls id).reads ∧
    accessKey buffer ∉ (s.access.calls id).writes

/-- The memory of an outstanding command is not handed over.

* `exclusive`: no other call holds a buffer of the command for writing. One holds it for reading
  when the invocation only reads it.
* `retained`: the allocation is active, and no other one has its region, or in arena mode
  its extent. -/
structure HandoverLaw (s : State) : Prop where
  exclusive : ∀ id buffers, s.outstanding id buffers → ∀ buffer ∈ buffers, ∀ other ≠ id,
    other ∉ Access.writeHolders s.access (accessKey buffer) ∧
      (other ∈ Access.readHolders s.access (accessKey buffer) → s.onlyReads id buffer)
  retained : ∀ id buffers, s.outstanding id buffers → ∀ buffer ∈ buffers,
    buffer ∈ s.memory.active ∧ ∀ other ∈ s.memory.active, other ≠ buffer →
      other.region ≠ buffer.region ∨ other.extent.1 + other.extent.2 ≤ buffer.extent.1 ∨
        buffer.extent.1 + buffer.extent.2 ≤ other.extent.1

/-- A submission raises with its command outstanding only after the worker has stopped. -/
def FailsStopped (s : State) (act : Act) : Prop :=
  ∀ id, act = .fail id → (s.sessions (s.invocations id).session).stopped = true

/-! ### The invariant -/

/-- What holds of an invocation.

* `live`: its frames keep the storages alive.
* `keys`: what it has reserved are its arguments.
* `covered`: while its command is outstanding it is inside the `with` block, and the command
  names what it has reserved or allocated. -/
structure Sound (s : State) (id : Nat) (invocation : Invocation) : Prop where
  live : ∀ buffer ∈ invocation.refs, s.memory.isLive buffer = true
  keys : (s.access.calls id).pc.engaged = true →
    ∀ key ∈ (s.access.calls id).reads ++ (s.access.calls id).writes,
      ∃ buffer ∈ invocation.args, accessKey buffer = key
  covered : ∀ buffers, invocation.command = some buffers →
    (s.sessions invocation.session).stopped = false →
    (s.access.calls id).pc = .leased ∧ invocation.raised = false ∧
      ∀ buffer ∈ buffers, buffer ∈ invocation.own ∨ (buffer ∈ invocation.args ∧
        (accessKey buffer ∈ (s.access.calls id).reads ∨
          accessKey buffer ∈ (s.access.calls id).writes))

/-- The allocations of the first invocation are unknown to the second. -/
def Apart (a b : Invocation) : Prop := ∀ buffer ∈ a.own, buffer ∉ b.refs

/-- The invariant of a run. -/
structure Inv (cfg : Config) (s : State) : Prop where
  access : Access.accessMachine.Reach Access.NoInterrupt s.access
  memory : (memoryMachine cfg).Reachable s.memory
  begun : ∀ id, (id ∈ s.begun ∧ (s.invocations id).phase ≠ .idle) ∨ s.invocations id = .idle
  sound : ∀ id, Sound s id (s.invocations id)
  apart : ∀ id other, id ≠ other → Apart (s.invocations id) (s.invocations other)

section
variable {cfg : Config} {s t : State} {id : Nat}

/-- The invariant holds at the beginning. -/
theorem inv_init : Inv cfg .init where
  access := .start
  memory := .start
  begun _ := Or.inr rfl
  sound _ :=
    { live := fun _ hmem => by cases hmem
      keys := fun hengaged => by cases hengaged
      covered := fun _ hcommand => by cases hcommand }
  apart _ _ _ _ hmem := by cases hmem

/-- An invocation that has left its initial state has begun. -/
theorem Inv.mem_begun (h : Inv cfg s) (hne : s.invocations id ≠ .idle) :
    id ∈ s.begun ∧ (s.invocations id).phase ≠ .idle :=
  (h.begun id).resolve_right hne

/-- An invocation that the worker runs has begun. -/
theorem Inv.begun_of_running (h : Inv cfg s) (hphase : (s.invocations id).phase = .running) :
    id ∈ s.begun ∧ (s.invocations id).phase ≠ .idle := by
  refine h.mem_begun fun hidle => ?_
  rw [hidle] at hphase
  cases hphase

/-- An invocation with a command has begun. -/
theorem Inv.begun_of_command (h : Inv cfg s) (hcommand : (s.invocations id).command ≠ none) :
    id ∈ s.begun ∧ (s.invocations id).phase ≠ .idle := by
  refine h.mem_begun fun hidle => hcommand ?_
  rw [hidle]
  rfl

/-- The facts of an invocation depend on its own call, the storages and the sessions. -/
theorem Sound.of_frame {invocation : Invocation} (h : Sound s id invocation)
    (hcall : t.access.calls id = s.access.calls id)
    (hlive : ∀ buffer ∈ invocation.refs, s.memory.isLive buffer = true →
      t.memory.isLive buffer = true)
    (hstopped : ∀ session, (t.sessions session).stopped = false →
      (s.sessions session).stopped = false) : Sound t id invocation where
  live buffer hmem := hlive buffer hmem (h.live buffer hmem)
  keys := by
    rw [hcall]
    exact h.keys
  covered buffers hcommand hrunning := by
    rw [hcall]
    exact h.covered buffers hcommand (hstopped _ hrunning)

/-- The rule for a step that changes one invocation. The facts of the others are kept when the
storages stay alive and no stopped session runs again. -/
theorem Inv.set (h : Inv cfg s) {invocation : Invocation}
    (hcalls : t.access = s.access) (hmemory : (memoryMachine cfg).Reachable t.memory)
    (hlive : ∀ buffer, s.memory.isLive buffer = true → t.memory.isLive buffer = true)
    (hstopped : ∀ session, (t.sessions session).stopped = false →
      (s.sessions session).stopped = false)
    (hinvocations : t.invocations = Function.update s.invocations id invocation)
    (hsub : ∀ other ∈ s.begun, other ∈ t.begun)
    (hbegun : (id ∈ t.begun ∧ invocation.phase ≠ .idle) ∨ invocation = .idle)
    (hsound : Sound t id invocation)
    (hown : ∀ other, other ≠ id → Apart invocation (s.invocations other))
    (hrefs : ∀ other, other ≠ id → Apart (s.invocations other) invocation) : Inv cfg t where
  access := by
    rw [hcalls]
    exact h.access
  memory := hmemory
  begun other := by
    rw [hinvocations]
    by_cases heq : other = id
    · subst heq
      rw [Function.update_self]
      exact hbegun
    · rw [Function.update_of_ne heq]
      exact (h.begun other).imp_left (And.imp_left (hsub other))
  sound other := by
    rw [hinvocations]
    by_cases heq : other = id
    · subst heq
      rw [Function.update_self]
      exact hsound
    · rw [Function.update_of_ne heq]
      exact (h.sound other).of_frame (by rw [hcalls]) (fun buffer _ => hlive buffer) hstopped
  apart a b hne := by
    rw [hinvocations]
    by_cases ha : a = id
    · subst ha
      rw [Function.update_self, Function.update_of_ne hne.symm]
      exact hown b hne.symm
    · rw [Function.update_of_ne ha]
      by_cases hb : b = id
      · subst hb
        rw [Function.update_self]
        exact hrefs a ha
      · rw [Function.update_of_ne hb]
        exact h.apart a b hne

/-- A step that changes one invocation and nothing else. Its frames may drop references. -/
theorem Inv.update (h : Inv cfg s) {invocation : Invocation}
    (hbegun : (id ∈ s.begun ∧ invocation.phase ≠ .idle) ∨ invocation = .idle)
    (hargs : ∀ buffer ∈ invocation.args, buffer ∈ (s.invocations id).args)
    (hown : ∀ buffer ∈ invocation.own, buffer ∈ (s.invocations id).own)
    (hkeys : (s.access.calls id).pc.engaged = true → invocation.args = (s.invocations id).args)
    (hcovered : ∀ buffers, invocation.command = some buffers →
      (s.sessions invocation.session).stopped = false →
      (s.access.calls id).pc = .leased ∧ invocation.raised = false ∧
        ∀ buffer ∈ buffers, buffer ∈ invocation.own ∨ (buffer ∈ invocation.args ∧
          (accessKey buffer ∈ (s.access.calls id).reads ∨
            accessKey buffer ∈ (s.access.calls id).writes))) :
    Inv cfg (s.set id invocation) := by
  have hrefs : ∀ buffer ∈ invocation.refs, buffer ∈ (s.invocations id).refs := by
    intro buffer hmem
    rcases List.mem_append.mp hmem with hmem | hmem
    · exact List.mem_append_left _ (hargs buffer hmem)
    · exact List.mem_append_right _ (hown buffer hmem)
  refine h.set rfl h.memory (fun _ hlive => hlive) (fun _ hrunning => hrunning) rfl
    (fun _ hmem => hmem) hbegun ?_ ?_ ?_
  · refine ⟨fun buffer hmem => (h.sound id).live buffer (hrefs buffer hmem),
      fun hengaged => ?_, hcovered⟩
    rw [hkeys hengaged]
    exact (h.sound id).keys hengaged
  · exact fun other hne buffer hmem => h.apart id other hne.symm buffer (hown buffer hmem)
  · exact fun other hne buffer hmem hin => h.apart other id hne buffer hmem (hrefs buffer hin)

/-- A critical section of the access leases. A lease that covers a command is not released,
because the submission has neither returned nor raised. -/
theorem inv_access (h : Inv cfg s) {act : Access.Act} (hallowed : s.accessAllowed act = true)
    {access : Access.State} (hs : Access.step s.access act = some access) :
    Inv cfg { s with access := access } where
  access := by
    refine h.access.next (fun call heq => ?_) hs
    rw [heq] at hallowed
    cases hallowed
  memory := h.memory
  begun := h.begun
  apart := h.apart
  sound id :=
    { live := (h.sound id).live
      keys := by
        intro hengaged key hkey
        rcases Access.engages_step hs id hengaged with ⟨reads, writes, rfl, hreads, hwrites⟩ |
          ⟨hwas, hreads, hwrites⟩
        · change key ∈ (access.calls id).reads ++ (access.calls id).writes at hkey
          rw [hreads, hwrites] at hkey
          simp only [State.accessAllowed, decide_eq_true_eq] at hallowed
          exact hallowed.2 key hkey
        · change key ∈ (access.calls id).reads ++ (access.calls id).writes at hkey
          rw [hreads, hwrites] at hkey
          exact (h.sound id).keys hwas key hkey
      covered := by
        intro buffers hcommand hrunning
        obtain ⟨hpc, hraised, hnamed⟩ := (h.sound id).covered buffers hcommand hrunning
        have hnot : act ≠ .release id := by
          rintro rfl
          simp only [State.accessAllowed, decide_eq_true_eq] at hallowed
          rcases hallowed with hnone | hraise
          · rw [hcommand] at hnone
            cases hnone
          · rw [hraised] at hraise
            cases hraise
        obtain ⟨hsamePc, hreads, hwrites⟩ := Access.leased_step hs hpc hnot
        refine ⟨hsamePc.trans hpc, hraised, ?_⟩
        show ∀ buffer ∈ buffers, _ ∨ (_ ∧ (_ ∈ (access.calls id).reads ∨
          _ ∈ (access.calls id).writes))
        rw [hreads, hwrites]
        exact hnamed }

/-- A step of the memory. The finalizer of a storage does not run while an invocation
references it. -/
theorem inv_memory (h : Inv cfg s) {act : Memory.Act} (hallowed : s.memoryAllowed act = true)
    {memory : Memory.State} (hs : Memory.step cfg s.memory act = some memory) :
    Inv cfg { s with memory := memory } where
  access := h.access
  memory := h.memory.next trivial hs
  begun := h.begun
  apart := h.apart
  sound id := by
    refine (h.sound id).of_frame rfl (fun buffer hmem hlive => ?_) (fun _ hrunning => hrunning)
    refine isLive_step hs hlive ?_
    rintro rfl
    have hne : s.invocations id ≠ .idle := by
      intro hidle
      rw [hidle] at hmem
      cases hmem
    simp only [State.memoryAllowed, decide_eq_true_eq] at hallowed
    exact hallowed id (h.mem_begun hne).1 buffer hmem rfl

/-- The ids of live buffers identify them. -/
theorem Inv.eq_of_key (h : Inv cfg s) {a b : SharedBuffer} (ha : s.memory.isLive a = true)
    (hb : s.memory.isLive b = true) (hkey : accessKey a = accessKey b) : a = b := by
  simp only [State.isLive, Bool.and_eq_true, decide_eq_true_eq] at ha hb
  have hid : a.allocationId = b.allocationId := congrArg Access.AccessKey.allocationId hkey
  exact List.inj_on_of_nodup_map (allocationIds_nodup h.memory) ha.1 hb.1 hid

/-- An invocation allocates memory. No frame can reference the buffer yet, since its id differs
from those of all live allocations. -/
theorem inv_create (h : Inv cfg s) {byteLength allocationId region : Nat} (hinside : s.inside id)
    {memory : Memory.State}
    (hs : Memory.step cfg s.memory (.allocate byteLength allocationId region) = some memory)
    {buffer : SharedBuffer}
    (hok : (allocate cfg s.memory byteLength allocationId region).2 = .ok buffer) :
    Inv cfg { s.set id { s.invocations id with own := buffer :: (s.invocations id).own } with
      memory := memory } := by
  have hreachable : (memoryMachine cfg).Reachable memory :=
    h.memory.next (a := .allocate byteLength allocationId region) trivial hs
  have hkeep : ∀ other, s.memory.isLive other = true → memory.isLive other = true :=
    fun other hlive => isLive_step hs hlive (by simp)
  simp only [Memory.step] at hs
  split at hs
  swap
  · cases hs
  rename_i hargs
  cases hs
  have hfresh := hargs.2.2.1
  obtain ⟨hreleased, hresult⟩ := allocate_frame cfg s.memory byteLength allocationId region
  rcases hresult with ⟨e, herror, -⟩ | ⟨new, hnew, hid, hactive⟩
  · rw [hok] at herror
    cases herror
  obtain rfl : buffer = new := by
    rw [hok] at hnew
    cases hnew
    rfl
  have hnotActive : buffer ∉ s.memory.active := fun hmem => hfresh buffer hmem hid
  have hnotRefs : ∀ other, buffer ∉ (s.invocations other).refs := by
    intro other hmem
    have hlive := (h.sound other).live buffer hmem
    simp only [State.isLive, Bool.and_eq_true, decide_eq_true_eq] at hlive
    exact hnotActive hlive.1
  have hlive : (allocate cfg s.memory byteLength allocationId region).1.isLive buffer = true := by
    simp only [State.isLive, Bool.and_eq_true, decide_eq_true_eq]
    rw [hactive, hreleased]
    refine ⟨List.mem_cons_self, fun hmem => ?_⟩
    obtain ⟨old, hold, heq⟩ := active_of_released h.memory _ hmem
    exact hfresh old hold (heq.trans hid)
  refine h.set rfl hreachable hkeep (fun _ hrunning => hrunning) rfl (fun _ hmem => hmem)
    (Or.inl (h.begun_of_running hinside.1)) ?_ ?_ ?_
  · refine ⟨fun other hmem => ?_, (h.sound id).keys, fun buffers hcommand _ => ?_⟩
    · rcases List.mem_append.mp hmem with hmem | hmem
      · exact hkeep other ((h.sound id).live other (List.mem_append_left _ hmem))
      · rcases List.mem_cons.mp hmem with rfl | hmem
        · exact hlive
        · exact hkeep other ((h.sound id).live other (List.mem_append_right _ hmem))
    · have hnone := hinside.2.2.1
      rw [hnone] at hcommand
      cases hcommand
  · intro other hne b hmem
    rcases List.mem_cons.mp hmem with rfl | hmem
    · exact hnotRefs other
    · exact h.apart id other hne.symm b hmem
  · intro other hne b hmem hin
    rcases List.mem_append.mp hin with hin | hin
    · exact h.apart other id hne b hmem (List.mem_append_left _ hin)
    · rcases List.mem_cons.mp hin with rfl | hin
      · exact hnotRefs other (List.mem_append_right _ hmem)
      · exact h.apart other id hne b hmem (List.mem_append_right _ hin)

/-- Behind the `with` block the call is not engaged. -/
theorem outside_eq (s : State) (id : Nat) :
    s.outside id = !(s.access.calls id).pc.engaged := by
  unfold State.outside
  cases (s.access.calls id).pc <;> rfl

/-- Every step keeps the invariant when a submission raises only after its worker has
stopped. -/
theorem inv_step (h : Inv cfg s) {act : Act} (hok : FailsStopped s act)
    (hs : step cfg s act = some t) : Inv cfg t := by
  cases act with
  | begin id session =>
    simp only [step] at hs
    split at hs
    swap
    · cases hs
    rename_i hguard
    cases hs
    have hidle : s.invocations id = .idle :=
      (h.begun id).resolve_left fun hbegun => hbegun.2 hguard.1
    -- An invocation that begins has no reference and no command.
    refine h.set rfl h.memory (fun _ hlive => hlive) (fun _ hrunning => hrunning) rfl
      (fun _ hmem => List.mem_cons_of_mem _ hmem) (Or.inl ⟨List.mem_cons_self, by simp⟩) ?_ ?_ ?_
    · have hkeys := (h.sound id).keys
      rw [hidle] at hkeys
      exact
        { live := fun _ hmem => by cases hmem
          keys := hkeys
          covered := fun _ hcommand => by cases hcommand }
    · exact fun _ _ _ hmem => by cases hmem
    · exact fun _ _ _ _ hin => by cases hin
  | bind id buffer =>
    simp only [step] at hs
    split at hs
    swap
    · cases hs
    rename_i hguard
    obtain ⟨hphase, hpc, hlive, hprivate⟩ := hguard
    cases hs
    refine h.set rfl h.memory (fun _ hlive => hlive) (fun _ hrunning => hrunning) rfl
      (fun _ hmem => hmem) (Or.inl (h.begun_of_running hphase)) ?_ ?_ ?_
    · refine ⟨fun b hmem => ?_, fun hengaged => ?_, fun buffers hcommand hrunning => ?_⟩
      · rcases List.mem_cons.mp hmem with rfl | hmem
        · exact hlive
        · exact (h.sound id).live b hmem
      · change (s.access.calls id).pc.engaged = true at hengaged
        rw [hpc] at hengaged
        cases hengaged
      · have hleased := ((h.sound id).covered buffers hcommand hrunning).1
        rw [hpc] at hleased
        cases hleased
    · exact fun other hne => h.apart id other hne.symm
    · intro other hne b hmem hin
      rcases List.mem_cons.mp hin with rfl | hin
      · have hbegun : s.invocations other ≠ .idle := by
          intro hidle
          rw [hidle] at hmem
          cases hmem
        exact hprivate other (h.mem_begun hbegun).1 hne hmem
      · exact h.apart other id hne b hmem hin
  | access act =>
    simp only [step] at hs
    split at hs
    · rename_i hallowed
      rw [Option.map_eq_some_iff] at hs
      obtain ⟨access, haccess, rfl⟩ := hs
      exact inv_access h hallowed haccess
    · cases hs
  | create id byteLength allocationId region =>
    simp only [step] at hs
    split at hs
    · rename_i hinside
      rw [Option.map_eq_some_iff] at hs
      obtain ⟨memory, hmemory, hresult⟩ := hs
      split at hresult
      · subst hresult
        exact inv_memory h rfl hmemory
      · rename_i buffer hbuffer
        subst hresult
        exact inv_create h hinside hmemory hbuffer
    · cases hs
  | publish id buffers =>
    simp only [step] at hs
    split at hs
    swap
    · cases hs
    rename_i hguard
    obtain ⟨⟨hphase, hpc, -, hraised⟩, hnamed⟩ := hguard
    cases hs
    refine h.update (Or.inl (h.begun_of_running hphase)) (fun _ hmem => hmem)
      (fun _ hmem => hmem) (fun _ => rfl) fun names hcommand _ => ?_
    obtain rfl : buffers = names := Option.some.inj hcommand
    exact ⟨hpc, hraised, hnamed⟩
  | complete id =>
    simp only [step] at hs
    split at hs
    swap
    · cases hs
    rename_i hguard
    cases hs
    exact h.update (Or.inl (h.begun_of_command hguard.1)) (fun _ hmem => hmem)
      (fun _ hmem => hmem) (fun _ => rfl) fun _ hcommand => by cases hcommand
  | fail id =>
    simp only [step] at hs
    split at hs
    swap
    · cases hs
    rename_i hguard
    cases hs
    have hstopped : ∀ session, (Function.update s.sessions (s.invocations id).session
        { s.sessions (s.invocations id).session with invalidated := true } session).stopped =
        (s.sessions session).stopped := by
      intro session
      by_cases heq : session = (s.invocations id).session
      · rw [heq, Function.update_self]
      · rw [Function.update_of_ne heq]
    refine h.set rfl h.memory (fun _ hlive => hlive) (fun session hrunning => ?_) rfl
      (fun _ hmem => hmem) (Or.inl (h.begun_of_command hguard.1)) ?_ ?_ ?_
    · exact (hstopped session).symm.trans hrunning
    · refine ⟨(h.sound id).live, (h.sound id).keys, fun buffers _ hrunning => ?_⟩
      -- The worker has stopped, so that its command is not outstanding.
      have hrun := (hstopped _).symm.trans hrunning
      rw [hok id rfl] at hrun
      cases hrun
    · exact fun other hne => h.apart id other hne.symm
    · exact fun other hne => h.apart other id hne
  | drop id buffer =>
    simp only [step] at hs
    split at hs
    swap
    · cases hs
    rename_i hguard
    cases hs
    refine h.update ?_ (fun _ hmem => hmem) (fun _ hmem => List.mem_of_mem_erase hmem)
      (fun _ => rfl) fun buffers hcommand => ?_
    · refine (h.begun id).imp_right fun hidle => ?_
      rw [hidle]
      rfl
    · rw [hguard.1] at hcommand
      cases hcommand
  | leave id =>
    simp only [step] at hs
    split at hs
    swap
    · cases hs
    rename_i hguard
    obtain ⟨hphase, houtside, hover⟩ := hguard
    cases hs
    refine h.update (Or.inl ⟨(h.begun_of_running hphase).1, by simp⟩) (fun _ hmem => by cases hmem)
      (fun _ hmem => by cases hmem) (fun hengaged => ?_) fun buffers hcommand hrunning => ?_
    · rw [outside_eq, hengaged] at houtside
      cases houtside
    · obtain ⟨-, hraised, -⟩ := (h.sound id).covered buffers hcommand hrunning
      rcases hover with hnone | hraise
      · rw [hcommand] at hnone
        cases hnone
      · rw [hraised] at hraise
        cases hraise
  | stop session =>
    cases hs
    exact
      { access := h.access
        memory := h.memory
        begun := h.begun
        apart := h.apart
        sound := fun id => (h.sound id).of_frame rfl (fun _ _ hlive => hlive)
          fun other hrunning => by
            by_cases heq : other = session
            · subst heq
              simp at hrunning
            · simpa [Function.update_of_ne heq] using hrunning }
  | memory act =>
    simp only [step] at hs
    split at hs
    · rename_i hallowed
      rw [Option.map_eq_some_iff] at hs
      obtain ⟨memory, hmemory, rfl⟩ := hs
      exact inv_memory h hallowed hmemory
    · cases hs
  | close =>
    cases hs
    exact
      { access := h.access.next (a := .close) (fun _ heq => by cases heq) rfl
        memory := h.memory.next (a := .closeBegin) trivial rfl
        begun := h.begun
        apart := h.apart
        sound := fun id => (h.sound id).of_frame rfl (fun _ _ hlive => hlive)
          (fun _ hrunning => hrunning) }

/-- Nobody else holds an allocation of a running invocation: a call that holds its key has
bound an argument with that key, which is the allocation itself. -/
theorem Inv.not_holds_own (h : Inv cfg s) {buffer : SharedBuffer}
    (hown : buffer ∈ (s.invocations id).own) {other : Nat} (hne : other ≠ id) :
    other ∉ Access.readHolders s.access (accessKey buffer) ∧
      other ∉ Access.writeHolders s.access (accessKey buffer) := by
  have hlive := (h.sound id).live buffer (List.mem_append_right _ hown)
  have hkey : (s.access.calls other).holds = true →
      accessKey buffer ∉ (s.access.calls other).reads ++ (s.access.calls other).writes := by
    intro hholds hkey
    obtain ⟨argument, hargument, heq⟩ :=
      (h.sound other).keys (Access.Call.engaged_of_holds hholds) _ hkey
    have hrefs : argument ∈ (s.invocations other).refs := List.mem_append_left _ hargument
    obtain rfl := h.eq_of_key ((h.sound other).live argument hrefs) hlive heq
    exact h.apart id other hne.symm argument hown hrefs
  constructor
  · intro hmem
    simp only [Access.readHolders, List.mem_filter, Bool.and_eq_true, decide_eq_true_eq] at hmem
    exact hkey hmem.2.1 (List.mem_append_left _ hmem.2.2.1)
  · intro hmem
    simp only [Access.writeHolders, List.mem_filter, Bool.and_eq_true, decide_eq_true_eq] at hmem
    exact hkey hmem.2.1 (List.mem_append_right _ hmem.2.2)

/-- An argument of the command is covered by the lease. -/
theorem Inv.not_holds_reserved (h : Inv cfg s) {key : Access.AccessKey}
    (hpc : (s.access.calls id).pc = .leased)
    (hkey : key ∈ (s.access.calls id).reads ∨ key ∈ (s.access.calls id).writes) {other : Nat}
    (hne : other ≠ id) :
    other ∉ Access.writeHolders s.access key ∧ (other ∈ Access.readHolders s.access key →
      key ∈ (s.access.calls id).reads ∧ key ∉ (s.access.calls id).writes) := by
  obtain ⟨hinv, hlive⟩ := Access.inv_live_of_reach h.access
  have hlaw := hlive.accessLaw hinv
  have hholder := (hlaw.whole id key).mpr ⟨hlaw.leased id (Or.inl hpc), hkey⟩
  rcases hlaw.exclusive key with hnone | ⟨⟨writer, hwriter⟩, hreaders⟩
  · -- Without a writer, the invocation is one of the readers.
    rw [hnone] at hholder ⊢
    refine ⟨List.not_mem_nil, fun _ => ?_⟩
    have hreader := hholder.resolve_right List.not_mem_nil
    simp only [Access.readHolders, List.mem_filter, Bool.and_eq_true, decide_eq_true_eq] at hreader
    exact hreader.2.2
  · rw [hwriter, hreaders] at hholder
    rw [hwriter, hreaders]
    have hself : id = writer := by simpa using hholder
    exact ⟨by simpa [← hself] using hne, fun hmem => absurd hmem List.not_mem_nil⟩

/-- The law follows from the invariant. -/
theorem Inv.handoverLaw (h : Inv cfg s) : HandoverLaw s where
  exclusive id buffers hout buffer hmem other hne := by
    obtain ⟨hpc, -, hnamed⟩ := (h.sound id).covered buffers hout.1 hout.2
    by_cases hown : buffer ∈ (s.invocations id).own
    · obtain ⟨hreads, hwrites⟩ := h.not_holds_own hown hne
      exact ⟨hwrites, fun hin => absurd hin hreads⟩
    · obtain ⟨-, hkey⟩ := (hnamed buffer hmem).resolve_left hown
      obtain ⟨hwrites, hreads⟩ := h.not_holds_reserved hpc hkey hne
      exact ⟨hwrites, fun hin => ⟨hown, hreads hin⟩⟩
  retained id buffers hout buffer hmem := by
    obtain ⟨-, -, hnamed⟩ := (h.sound id).covered buffers hout.1 hout.2
    have hrefs : buffer ∈ (s.invocations id).refs := by
      rcases hnamed buffer hmem with hown | ⟨hargs, -⟩
      · exact List.mem_append_right _ hown
      · exact List.mem_append_left _ hargs
    have hlive := (h.sound id).live buffer hrefs
    simp only [State.isLive, Bool.and_eq_true, decide_eq_true_eq] at hlive
    exact ⟨hlive.1, fun other hother hne => separate_of_reachable h.memory hother hlive.1 hne⟩

end

/-- The memory of an outstanding command is not handed over in any run in which submissions
raise only after their worker has stopped. -/
theorem handoverLaw_of_reach (cfg : Config) (s : State)
    (h : (systemMachine cfg).Reach FailsStopped s) : HandoverLaw s := by
  have hinv : Inv cfg s := h.invariant (I := Inv cfg) inv_init fun _ _ _ hinv hok hs =>
    inv_step hinv hok hs
  exact hinv.handoverLaw

/-- A pool without a cache. -/
def emptyPool : Config where
  mode := .pooled
  arenaBytes := 64
  maxCachedBuffers := 0
  maxCachedBytes := 0
  arenaBytes_pos := sixtyFour_pos
  arenaBytes_aligned := aligned_sixtyFour

/-- The first allocation of a pool, in region 7. -/
def firstBuffer : SharedBuffer := ⟨7, 1, 1, 0, 10, false⟩

/-- The second one, in region 8. -/
def secondBuffer : SharedBuffer := ⟨8, 1, 2, 0, 4, false⟩

/-- Two invocations on two sessions read one buffer. The worker of the second stops, and its
submission raises. The first has an output, and its command is outstanding. -/
theorem handoverLaw_stopped_worker : ∃ s, (systemMachine emptyPool).Reach FailsStopped s ∧
    (s.invocations 1).raised = true ∧
    s.outstanding 0 [firstBuffer, secondBuffer] ∧ HandoverLaw s := by
  obtain ⟨u, hrun, htest⟩ := Machine.exists_of_exec (M := systemMachine emptyPool) (s := .init)
    (fun u => (u.sessions (u.invocations 1).session).stopped &&
      (step emptyPool u (.fail 1)).any fun s : State => (s.invocations 1).raised &&
        decide ((s.invocations 0).command = some [firstBuffer, secondBuffer]) &&
        !(s.sessions (s.invocations 0).session).stopped)
    [.memory (.allocate 10 1 7), .begin 0 0, .bind 0 firstBuffer,
      .access (.reserve 0 [accessKey firstBuffer] []), .create 0 4 2 8,
      .publish 0 [firstBuffer, secondBuffer], .begin 1 1, .bind 1 firstBuffer,
      .access (.reserve 1 [accessKey firstBuffer] []), .publish 1 [firstBuffer], .stop 1] (by decide)
  rw [Bool.and_eq_true, Option.any_eq_true] at htest
  obtain ⟨hstopped, s, hfail, hs⟩ := htest
  simp only [Bool.and_eq_true, decide_eq_true_eq, Bool.not_eq_true'] at hs
  have hreach : (systemMachine emptyPool).Reach FailsStopped u := by
    refine Machine.Reach.exec .start (fun _ a ha id heq => ?_) hrun
    subst heq
    simp at ha
  have hlast : (systemMachine emptyPool).Reach FailsStopped s := by
    refine hreach.next (a := .fail 1) (fun id heq => ?_) hfail
    obtain rfl : 1 = id := by injection heq
    exact hstopped
  exact ⟨s, hlast, hs.1.1, ⟨hs.1.2, hs.2⟩, handoverLaw_of_reach emptyPool s hlast⟩

/-- Two invocations on two sessions write one buffer. The first one's deadline expires, and its
exception releases the lease. The second is granted the buffer while the worker of the
first runs with the command. -/
theorem deadline_hands_over_memory :
    ∃ s, (systemMachine emptyPool).Reachable s ∧ ¬ HandoverLaw s := by
  obtain ⟨s, hrun, htest⟩ := Machine.exists_of_exec (M := systemMachine emptyPool) (s := .init)
    (fun s => decide ((s.invocations 0).command = some [firstBuffer]) &&
      !(s.sessions (s.invocations 0).session).stopped &&
      decide (1 ∈ Access.writeHolders s.access (accessKey firstBuffer)))
    [.memory (.allocate 10 1 7), .begin 0 0, .bind 0 firstBuffer,
      .access (.reserve 0 [] [accessKey firstBuffer]), .publish 0 [firstBuffer],
      .begin 1 1, .bind 1 firstBuffer, .access (.reserve 1 [] [accessKey firstBuffer]),
      .fail 0, .access (.release 0), .access (.releaseAccess 0)] (by decide)
  simp only [Bool.and_eq_true, decide_eq_true_eq, Bool.not_eq_true'] at htest
  obtain ⟨⟨hcommand, hrunning⟩, hholder⟩ := htest
  refine ⟨s, Machine.reachable_of_exec hrun, fun hlaw => ?_⟩
  exact (hlaw.exclusive 0 _ ⟨hcommand, hrunning⟩ firstBuffer List.mem_cons_self 1
    (by decide)).1 hholder

end Wmfs.System
