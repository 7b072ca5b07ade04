import Wmfs.Session.Transfer

/-!
# `Wmfs.Session.Pairing`: each mapping meets its descriptor

The batches of a call are the list of its requests, cut into pieces. The cursor of the sender into
the descriptors is the number of `MAP` requests before the batch, and that of the receiver is the
number of `MAP` entries before the entry. So the `i`-th `MAP` request of the whole list meets the
`i`-th descriptor, wherever the cuts are (`transferBatched_pairs`). `transfer` closes the
descriptors of its batch, and the handler of `transfer_batched` those behind the cursor. Together
these are all of them.

Nothing fails by itself: when each packet is served and acknowledged and the cache of the worker
accepts the requests one after the other (`applied`), the call sends and applies all of them
(`transferLoop_applied`).
-/

set_option autoImplicit false

namespace Wmfs.Session.Transfer

open Wmfs.Lib
open Wmfs.Control (FdEntry)
open Wmfs.Control (MAX_FD_ENTRIES MAX_PACKET_BYTES)
open Wmfs.Session.Cache (Mapping Worker)

section
variable {Fd : Type}

/-! ### The pairing -/

/-- A request: a value, and whether it is mapped or retired. -/
abbrev Request : Type := Mapping × Bool

/-- The entries of the requests. -/
def entriesOf (requests : List Request) : List FdEntry :=
  requests.map fun request => entryOf request.1 request.2

/-- The entries of the requests, pair by pair. -/
theorem entriesOf_zip (values : List Mapping) (maps : List Bool) :
    entriesOf (values.zip maps) = List.zipWith entryOf values maps := by
  rw [entriesOf, List.map_zip_eq_zipWith]
  rfl

/-- The values that are mapped. -/
def mapped (requests : List Request) : List Mapping :=
  requests.filterMap fun request => if request.2 then some request.1 else none

/-- The calls of the cache that the requests stand for, when each `MAP` takes the next
descriptor. -/
def paired : List Request → List Fd → List (CacheCall Fd)
  | [], _ => []
  | (value, false) :: requests, fds =>
    .retire value.bufferId value.generation value.allocationId :: paired requests fds
  | (value, true) :: requests, fd :: fds => .add value fd :: paired requests fds
  | (_, true) :: _, [] => []

/-- The `MAP` requests and the descriptors, by position. -/
theorem filterMap_added_paired (requests : List Request) (fds : List Fd) :
    (paired requests fds).filterMap CacheCall.added = (mapped requests).zip fds := by
  induction requests generalizing fds with
  | nil => rfl
  | cons request requests ih =>
    obtain ⟨value, map⟩ := request
    cases map with
    | false => exact ih fds
    | true =>
      cases fds with
      | nil => exact (List.zip_nil_right).symm
      | cons fd fds => exact congrArg _ (ih fds)

/-- The descriptors of two batches in a row. -/
theorem paired_append {requests : List Request} {fds : List Fd}
    (h : fds.length = (mapped requests).length) (requests' : List Request) (fds' : List Fd) :
    paired (requests ++ requests') (fds ++ fds') =
      paired requests fds ++ paired requests' fds' := by
  induction requests generalizing fds with
  | nil =>
    rw [List.length_eq_zero_iff.mp h]
    rfl
  | cons request requests ih =>
    obtain ⟨value, map⟩ := request
    cases map with
    | false => exact congrArg _ (ih h)
    | true =>
      cases fds with
      | nil => cases h
      | cons fd fds => exact congrArg _ (ih (Nat.succ.inj h))

/-- The cursor into the descriptors counts the `MAP` requests. -/
theorem mapped_length {values : List Mapping} {maps : List Bool}
    (h : maps.length = values.length) : (mapped (values.zip maps)).length = maps.count true := by
  induction values generalizing maps with
  | nil =>
    rw [List.length_eq_zero_iff.mp h]
    rfl
  | cons value values ih =>
    cases maps with
    | nil => cases h
    | cons map maps =>
      have hrest := ih (Nat.succ.inj h)
      cases map with
      | false => rw [List.count_cons_of_ne (by decide), ← hrest]; rfl
      | true => rw [List.count_cons_self, ← hrest]; rfl

/-! ### Entries -/

/-- The receiver reads what the sender has written. -/
theorem mappingOf_entryOf_true (value : Mapping) : mappingOf (entryOf value true) = value := by
  obtain ⟨bufferId, generation, allocationId, byteLength, writable, arena, invocationId⟩ := value
  cases writable <;> cases arena <;> simp [mappingOf, entryOf] <;> decide

/-- The entry of a request is valid. -/
theorem entryValid_entryOf (value : Mapping) (map : Bool) :
    entryValid (entryOf value map) = true := by
  obtain ⟨bufferId, generation, allocationId, byteLength, writable, arena, invocationId⟩ := value
  cases map <;> cases writable <;> cases arena <;> simp [entryValid, entryOf]

/-- The `MAP` entries are those of the mapped requests. -/
theorem mapCount_entriesOf (requests : List Request) :
    mapCount (entriesOf requests) = (mapped requests).length := by
  induction requests with
  | nil => rfl
  | cons request requests ih =>
    obtain ⟨value, map⟩ := request
    rw [entriesOf, List.map_cons, mapCount, List.countP_cons]
    have hrest : List.countP (fun entry => decide (entry.kind = .map))
        (requests.map fun request => entryOf request.1 request.2) = (mapped requests).length := ih
    rw [hrest]
    cases map <;> rfl

/-! ### The receiver -/

/-- A `RETIRE` entry takes no descriptor. -/
theorem applyRetire_spec (s : Serving Fd) (mapping : Mapping) :
    (applyRetire s mapping).1.receiver.calls = s.receiver.calls ++
        [.retire mapping.bufferId mapping.generation mapping.allocationId] ∧
      (applyRetire s mapping).1.received = s.received ∧
      (applyRetire s mapping).1.fdIndex = s.fdIndex := by
  unfold applyRetire
  dsimp only
  split <;> exact ⟨rfl, rfl, rfl⟩

/-- A `MAP` entry takes the descriptor at the cursor. -/
theorem applyMap_spec (file : Fd → Option Nat) (s : Serving Fd) (mapping : Mapping) {fd : Fd}
    {rest : List (Option Fd)} (hreceived : s.received.drop s.fdIndex = some fd :: rest) :
    (applyMap file s mapping).1.receiver.calls = s.receiver.calls ++ [.add mapping fd] ∧
      (applyMap file s mapping).1.received.drop (applyMap file s mapping).1.fdIndex = rest := by
  have hfd : s.received[s.fdIndex]? = some (some fd) := by
    rw [← List.head?_drop, hreceived]
    rfl
  have hrest : s.received.drop (s.fdIndex + 1) = rest := by
    rw [← List.drop_drop, hreceived]
    rfl
  unfold applyMap
  rw [hfd]
  dsimp only
  split
  · exact ⟨rfl, hrest⟩
  · refine ⟨rfl, ?_⟩
    -- The cursor is behind the entry that becomes `-1`.
    rw [Nat.add_sub_cancel, List.drop_set_of_lt (Nat.lt_succ_self _), hrest]

/-- The first entry leads to the first call, and leaves the descriptors of the other ones. -/
theorem applyEntry_spec (file : Fd → Option Nat) (s : Serving Fd) (request : Request)
    {requests : List Request} {fds : List Fd}
    (hfds : fds.length = (mapped (request :: requests)).length)
    (hreceived : s.received.drop s.fdIndex = fds.map some) :
    ∃ call fds', paired (request :: requests) fds = call :: paired requests fds' ∧
      fds'.length = (mapped requests).length ∧
      (applyEntry file s (entryOf request.1 request.2)).1.receiver.calls =
        s.receiver.calls ++ [call] ∧
      (applyEntry file s (entryOf request.1 request.2)).1.received.drop
        (applyEntry file s (entryOf request.1 request.2)).1.fdIndex = fds'.map some := by
  obtain ⟨value, map⟩ := request
  cases map with
  | false =>
    obtain ⟨hcalls, hsame, hindex⟩ := applyRetire_spec s (mappingOf (entryOf value false))
    refine ⟨_, fds, rfl, hfds, hcalls, ?_⟩
    show (applyRetire s (mappingOf (entryOf value false))).1.received.drop
      (applyRetire s (mappingOf (entryOf value false))).1.fdIndex = _
    rw [hsame, hindex, hreceived]
  | true =>
    cases fds with
    | nil => cases hfds
    | cons fd fds =>
      obtain ⟨hcalls, hrest⟩ := applyMap_spec file s (mappingOf (entryOf value true)) hreceived
      refine ⟨_, fds, rfl, Nat.succ.inj hfds, hcalls.trans ?_, hrest⟩
      rw [mappingOf_entryOf_true]

/-- The entries of the requests lead to their calls, up to the one that is refused. -/
theorem applyEntries_spec (file : Fd → Option Nat) (requests : List Request) (s : Serving Fd)
    {fds : List Fd} (hfds : fds.length = (mapped requests).length)
    (hreceived : s.received.drop s.fdIndex = fds.map some) :
    ∃ calls, (applyEntries file s (entriesOf requests)).1.receiver.calls =
        s.receiver.calls ++ calls ∧
      calls <+: paired requests fds ∧
      ((applyEntries file s (entriesOf requests)).2 = .ok () → calls = paired requests fds) := by
  induction requests generalizing s fds with
  | nil => exact ⟨[], (List.append_nil _).symm, List.prefix_rfl, fun _ => rfl⟩
  | cons request requests ih =>
    obtain ⟨call, fds', hpaired, hfds', hcall, hrest⟩ := applyEntry_spec file s request hfds hreceived
    rw [entriesOf, List.map_cons, applyEntries, hpaired]
    cases hentry : applyEntry file s (entryOf request.1 request.2) with
    | mk s' result =>
      rw [hentry] at hcall hrest
      cases result with
      | error error =>
        -- The rest of the entries is not applied.
        refine ⟨[call], hcall, List.prefix_append [call] _, ?_⟩
        intro h
        cases h
      | ok _ =>
        obtain ⟨calls, hcalls, hprefixed, hall⟩ := ih s' hfds' hrest
        refine ⟨call :: calls, ?_, (List.prefix_cons_inj call).mpr hprefixed, ?_⟩
        · show (applyEntries file s' (entriesOf requests)).1.receiver.calls = _
          rw [hcalls, hcall, List.append_assoc]
          rfl
        · intro h
          exact congrArg _ (hall h)

/-! ### A packet -/

/-- A packet of requests, with their descriptors. -/
structure Carries (message : Message Fd) (requests : List Request) (fds : List Fd) : Prop where
  entries_eq : message.entries = entriesOf requests
  fds_eq : message.fds = fds
  nonempty : requests ≠ []
  entryCount : message.entryCount.toNat = requests.length
  length_le : requests.length ≤ MAX_FD_ENTRIES
  fdCount : message.fdCount.toNat = (mapped requests).length
  paired : fds.length = (mapped requests).length

/-- A message that carries a batch is decoded. -/
theorem Carries.decodes {message : Message Fd} {requests : List Request} {fds : List Fd}
    (h : Carries message requests fds) : decodes message = true := by
  have hne : message.entryCount ≠ 0 := by
    intro hzero
    have hcount := h.entryCount
    rw [hzero] at hcount
    exact h.nonempty (List.length_eq_zero_iff.mp hcount.symm)
  have hvalid : ∀ entry ∈ message.entries, entryValid entry = true := by
    rw [h.entries_eq, entriesOf, List.forall_mem_map]
    intro request _
    exact entryValid_entryOf request.1 request.2
  have hcount : mapCount message.entries = message.fdCount.toNat := by
    rw [h.entries_eq, mapCount_entriesOf, h.fdCount]
  have hentries : message.entries.length = message.entryCount.toNat := by
    rw [h.entries_eq, entriesOf, List.length_map, h.entryCount]
  have hfds : message.fds.length = message.fdCount.toNat := by
    rw [h.fds_eq, h.paired, h.fdCount]
  have hle := h.length_le
  rw [← h.entryCount] at hle
  rw [Transfer.decodes, decide_eq_true_eq]
  exact ⟨hentries, hne, hle, hvalid, hcount, hfds⟩

/-- The receiver makes the calls of a packet, all of them when it acknowledges it. -/
theorem serve_spec (file : Fd → Option Nat) (receiver : Receiver Fd) {message : Message Fd}
    {requests : List Request} {fds : List Fd} (h : Carries message requests fds) :
    ∃ calls, (serve file receiver message).1.calls = receiver.calls ++ calls ∧
      calls <+: paired requests fds ∧
      ((serve file receiver message).2 = some true → calls = paired requests fds) := by
  unfold serve
  rw [if_neg (not_not.mpr h.decodes)]
  dsimp only
  by_cases hgeneration : message.sessionGeneration ≠ receiver.sessionGeneration
  · rw [if_pos hgeneration]
    refine ⟨[], (List.append_nil _).symm, List.nil_prefix, ?_⟩
    intro hack
    cases hack
  · rw [if_neg hgeneration, h.entries_eq, h.fds_eq]
    obtain ⟨calls, hcalls, hprefixed, hall⟩ :=
      applyEntries_spec file requests ⟨receiver, fds.map some, 0⟩ h.paired rfl
    refine ⟨calls, ?_, hprefixed, ?_⟩
    · rw [← hcalls]
      split <;> rfl
    · split
      · next hok => exact fun _ => hall hok
      · intro hack
        cases hack

/-- Where the loop over the entries is: behind the first `k` descriptors, which `add` has closed. -/
structure Closing (closed : List Fd) (fds : List Fd) (k : Nat) (s : Serving Fd) : Prop where
  fdIndex : s.fdIndex = k
  received : s.received = List.replicate k none ++ (fds.drop k).map some
  closed_eq : s.receiver.closed = closed ++ fds.take k

/-- An entry is refused, and the handler is to close `received_fds`. They have the descriptor of an
`add` that is refused, which is closed already. -/
structure Refused (closed fds : List Fd) (s : Serving Fd) (first again rest : List Fd) : Prop where
  fds_eq : fds = first ++ (again ++ rest)
  again_le : again.length ≤ 1
  closed_eq : s.receiver.closed = closed ++ (first ++ again)
  received : s.received.filterMap id = again ++ rest

/-- The descriptors that have not been closed. -/
theorem filterMap_received (k : Nat) (fds : List Fd) :
    (List.replicate k none ++ fds.map some).filterMap id = fds := by
  rw [List.filterMap_append, List.filterMap_replicate_of_none rfl, List.nil_append,
    List.filterMap_map]
  exact List.filterMap_some

section
variable {closed fds : List Fd} {k : Nat} {s : Serving Fd}

/-- A call that has closed the first descriptors refuses the rest. -/
theorem Closing.refused (h : Closing closed fds k s) :
    Refused closed fds s (fds.take k) [] (fds.drop k) where
  fds_eq := (List.take_append_drop k fds).symm
  again_le := Nat.zero_le 1
  closed_eq := by rw [h.closed_eq, List.append_nil]
  received := by rw [h.received, filterMap_received, List.nil_append]

/-- A `RETIRE` entry closes no descriptor. -/
theorem applyRetire_closing (h : Closing closed fds k s) (mapping : Mapping) :
    Closing closed fds k (applyRetire s mapping).1 := by
  unfold applyRetire
  dsimp only
  split <;> exact ⟨h.fdIndex, h.received, h.closed_eq⟩

/-- A `MAP` entry that is applied closes its descriptor. Otherwise the call is refused. -/
theorem applyMap_closing (file : Fd → Option Nat) (h : Closing closed fds k s)
    (mapping : Mapping) :
    ((applyMap file s mapping).2 = .ok () →
      Closing closed fds (k + 1) (applyMap file s mapping).1) ∧
    ((applyMap file s mapping).2 ≠ .ok () →
      ∃ first again rest, Refused closed fds (applyMap file s mapping).1 first again rest) := by
  have hget : s.received[s.fdIndex]? = (fds[k]?).map some := by
    rw [h.received, h.fdIndex, List.getElem?_append_right (by rw [List.length_replicate]),
      List.length_replicate, Nat.sub_self, List.getElem?_map, List.getElem?_drop, Nat.add_zero]
  unfold applyMap
  rw [hget]
  cases hfd : fds[k]? with
  | none =>
    refine ⟨fun hok => ?_, fun _ => ⟨_, _, _, h.refused⟩⟩
    cases hok
  | some fd =>
    obtain ⟨hlt, hfd⟩ := List.getElem?_eq_some_iff.mp hfd
    have hdrop : fds.drop k = fd :: fds.drop (k + 1) := by
      rw [List.drop_eq_getElem_cons hlt, hfd]
    have htake : fds.take (k + 1) = fds.take k ++ [fd] := by
      rw [List.take_add_one, List.getElem?_eq_getElem hlt, hfd]
      rfl
    dsimp only [Option.map_some]
    split
    · -- `received_fds` has the descriptor that `add` has closed.
      refine ⟨fun hok => ?_, fun _ => ⟨fds.take k, [fd], fds.drop (k + 1), ?_⟩⟩
      · cases hok
      · exact {
          fds_eq := by
            rw [List.singleton_append, ← hdrop]
            exact (List.take_append_drop k fds).symm
          again_le := le_rfl
          closed_eq := by
            show s.receiver.closed ++ [fd] = _
            rw [h.closed_eq, List.append_assoc]
          received := by
            show s.received.filterMap id = _
            rw [h.received, filterMap_received, hdrop]
            rfl }
    · refine ⟨fun _ => ?_, fun hrefused => absurd rfl hrefused⟩
      exact {
        fdIndex := congrArg (· + 1) h.fdIndex
        received := by
          show s.received.set (s.fdIndex + 1 - 1) none = _
          rw [Nat.add_sub_cancel, h.fdIndex, h.received, hdrop,
            List.set_append_right _ _ (by rw [List.length_replicate]), List.length_replicate,
            Nat.sub_self, List.replicate_succ', List.append_assoc]
          rfl
        closed_eq := by
          show s.receiver.closed ++ [fd] = _
          rw [h.closed_eq, htake, List.append_assoc] }

/-- The loop closes a descriptor for each entry, or ends at one that is refused. -/
theorem applyEntries_closing (file : Fd → Option Nat) (h : Closing closed fds k s)
    (entries : List FdEntry) :
    ((applyEntries file s entries).2 = .ok () →
      Closing closed fds (k + mapCount entries) (applyEntries file s entries).1) ∧
    ((applyEntries file s entries).2 ≠ .ok () →
      ∃ first again rest,
        Refused closed fds (applyEntries file s entries).1 first again rest) := by
  induction entries generalizing k s with
  | nil => exact ⟨fun _ => h, fun hrefused => absurd rfl hrefused⟩
  | cons entry entries ih =>
    -- What the entry does: a `RETIRE` closes nothing.
    have hentry : ((applyEntry file s entry).2 = .ok () →
          Closing closed fds (k + mapCount [entry]) (applyEntry file s entry).1) ∧
        ((applyEntry file s entry).2 ≠ .ok () → ∃ first again rest,
          Refused closed fds (applyEntry file s entry).1 first again rest) := by
      unfold applyEntry mapCount
      rw [List.countP_singleton]
      cases entry.kind with
      | map => exact applyMap_closing file h (mappingOf entry)
      | retire =>
        have hclosing := applyRetire_closing h (mappingOf entry)
        exact ⟨fun _ => hclosing, fun _ => ⟨_, _, _, hclosing.refused⟩⟩
    have hcount : mapCount (entry :: entries) = mapCount [entry] + mapCount entries :=
      @List.countP_append _ _ [entry] entries
    rw [applyEntries]
    cases hresult : applyEntry file s entry with
    | mk s' result =>
      rw [hresult] at hentry
      cases result with
      | error error =>
        refine ⟨fun hok => ?_, fun hrefused => hentry.2 hrefused⟩
        cases hok
      | ok _ =>
        have hrest := ih (hentry.1 rfl)
        rw [hcount, ← Nat.add_assoc]
        exact hrest

end

/-- What the receiver closes for a packet. It closes every descriptor, once when it acknowledges
the packet. When it refuses the packet it closes at most one of them again: that of an `add`, which
closes its descriptor before it raises, and leaves it in `received_fds` for the handler. -/
theorem serve_closes (file : Fd → Option Nat) (receiver : Receiver Fd) {message : Message Fd}
    {requests : List Request} {fds : List Fd} (h : Carries message requests fds) :
    ∃ first again rest, fds = first ++ (again ++ rest) ∧ again.length ≤ 1 ∧
      (serve file receiver message).1.closed =
        receiver.closed ++ (first ++ again) ++ (again ++ rest) ∧
      ((serve file receiver message).2 = some true → again = []) := by
  have hstart : Closing receiver.closed fds 0 (⟨receiver, fds.map some, 0⟩ : Serving Fd) :=
    ⟨rfl, rfl, (List.append_nil _).symm⟩
  unfold serve
  rw [if_neg (not_not.mpr h.decodes)]
  dsimp only
  by_cases hgeneration : message.sessionGeneration ≠ receiver.sessionGeneration
  · rw [if_pos hgeneration, h.fds_eq]
    refine ⟨[], [], fds, rfl, Nat.zero_le 1, ?_, fun _ => rfl⟩
    show receiver.closed ++ (fds.map some).filterMap id = _
    rw [List.append_nil, List.append_nil, List.nil_append]
    exact congrArg _ (filterMap_received 0 fds)
  · rw [if_neg hgeneration, h.entries_eq, h.fds_eq]
    obtain ⟨hok, hrefused⟩ := applyEntries_closing file hstart (entriesOf requests)
    split
    · next hresult =>
      have hclosing := hok hresult
      refine ⟨fds, [], [], (List.append_nil _).symm, Nat.zero_le 1, ?_, fun _ => rfl⟩
      rw [Nat.zero_add, mapCount_entriesOf, ← h.paired] at hclosing
      rw [List.append_nil, List.append_nil, List.append_nil, hclosing.closed_eq,
        List.take_length]
    · next hresult =>
      obtain ⟨first, again, rest, hstop⟩ := hrefused (by rw [hresult]; simp)
      refine ⟨first, again, rest, hstop.fds_eq, hstop.again_le, ?_, ?_⟩
      · rw [← hstop.closed_eq, ← hstop.received]
      · intro hack
        cases hack

/-- What the receiver does with a batch. -/
theorem deliver_spec (file : Fd → Option Nat) (receiver : Receiver Fd) {message : Message Fd}
    {requests : List Request} {fds : List Fd} (h : Carries message requests fds) :
    ∃ calls, (deliver file receiver message).1.calls = receiver.calls ++ calls ∧
      calls <+: paired requests fds ∧
      ((deliver file receiver message).2 = some true → calls = paired requests fds) := by
  unfold deliver
  split
  · exact serve_spec file receiver h
  · refine ⟨[], (List.append_nil _).symm, List.nil_prefix, ?_⟩
    intro hack
    cases hack

/-- The sender goes on when the batch has been acknowledged. -/
theorem eq_of_await {acknowledged : Bool} {acknowledgement : Option Bool}
    (h : await acknowledged acknowledgement = .ok ()) : acknowledgement = some true := by
  cases acknowledgement with
  | none => cases h
  | some ok => cases acknowledged <;> cases ok <;> first | rfl | cases h

/-! ### The sender -/

/-- What a session has done for these requests, when it has sent these packets and its receiver has
made these calls. All descriptors are closed. -/
structure Effects (requests : List Request) (fds : List Fd) (s s' : Sender Fd)
    (sent : List (Message Fd)) (calls : List (CacheCall Fd)) : Prop where
  sent_eq : s'.sent = s.sent ++ sent
  closed_eq : s'.closed = s.closed ++ fds
  calls_eq : s'.receiver.calls = s.receiver.calls ++ calls
  packets : ∀ message ∈ sent, ∃ requests fds, Carries message requests fds
  entries_prefix : sent.flatMap Message.entries <+: entriesOf requests
  fds_prefix : sent.flatMap Message.fds <+: fds
  calls_prefix : calls <+: paired requests fds

/-- The packets and the calls are those of all requests. -/
structure Complete (requests : List Request) (fds : List Fd) (sent : List (Message Fd))
    (calls : List (CacheCall Fd)) : Prop where
  entries_eq : sent.flatMap Message.entries = entriesOf requests
  fds_eq : sent.flatMap Message.fds = fds
  calls_eq : calls = paired requests fds

section
variable {requests requests' : List Request} {fds fds' : List Fd} {s s₁ s₂ : Sender Fd}
  {sent sent' : List (Message Fd)} {calls calls' : List (CacheCall Fd)}

/-- The entries of two batches in a row. -/
theorem entriesOf_append (requests requests' : List Request) :
    entriesOf (requests ++ requests') = entriesOf requests ++ entriesOf requests' :=
  List.map_append

/-- A completed batch, and then others. -/
theorem Effects.append (h : Effects requests fds s s₁ sent calls)
    (hcomplete : Complete requests fds sent calls) (hfds : fds.length = (mapped requests).length)
    (h' : Effects requests' fds' s₁ s₂ sent' calls') :
    Effects (requests ++ requests') (fds ++ fds') s s₂ (sent ++ sent') (calls ++ calls') where
  sent_eq := by rw [h'.sent_eq, h.sent_eq, List.append_assoc]
  closed_eq := by rw [h'.closed_eq, h.closed_eq, List.append_assoc]
  calls_eq := by rw [h'.calls_eq, h.calls_eq, List.append_assoc]
  packets := by
    intro message hmem
    rcases List.mem_append.mp hmem with hmem | hmem
    · exact h.packets message hmem
    · exact h'.packets message hmem
  entries_prefix := by
    rw [List.flatMap_append, hcomplete.entries_eq, entriesOf_append, List.prefix_append_right_inj]
    exact h'.entries_prefix
  fds_prefix := by
    rw [List.flatMap_append, hcomplete.fds_eq, List.prefix_append_right_inj]
    exact h'.fds_prefix
  calls_prefix := by
    rw [paired_append hfds, hcomplete.calls_eq, List.prefix_append_right_inj]
    exact h'.calls_prefix

/-- Two complete batches in a row are complete. -/
theorem Complete.append (h : Complete requests fds sent calls)
    (hfds : fds.length = (mapped requests).length) (h' : Complete requests' fds' sent' calls') :
    Complete (requests ++ requests') (fds ++ fds') (sent ++ sent') (calls ++ calls') where
  entries_eq := by rw [List.flatMap_append, h.entries_eq, h'.entries_eq, entriesOf_append]
  fds_eq := by rw [List.flatMap_append, h.fds_eq, h'.fds_eq]
  calls_eq := by rw [paired_append hfds, h.calls_eq, h'.calls_eq]

/-- A batch that fails, and the handler that closes the other descriptors. -/
theorem Effects.stop (h : Effects requests fds s s₁ sent calls)
    (hfds : fds.length = (mapped requests).length) (requests' : List Request) (fds' : List Fd) :
    Effects (requests ++ requests') (fds ++ fds') s { s₁ with closed := s₁.closed ++ fds' } sent
      calls where
  sent_eq := h.sent_eq
  closed_eq := by
    show s₁.closed ++ fds' = _
    rw [h.closed_eq, List.append_assoc]
  calls_eq := h.calls_eq
  packets := h.packets
  entries_prefix := by
    rw [entriesOf_append]
    exact h.entries_prefix.trans (List.prefix_append _ _)
  fds_prefix := h.fds_prefix.trans (List.prefix_append _ _)
  calls_prefix := by
    rw [paired_append hfds]
    exact h.calls_prefix.trans (List.prefix_append _ _)

end

/-- The packet of a batch carries its requests, and the encoder does not refuse it. -/
theorem message_carries (s : Sender Fd) {values : List Mapping} {maps : List Bool} {fds : List Fd}
    (hvalues : values ≠ []) (hle : values.length ≤ MAX_FD_ENTRIES)
    (hmaps : maps.length = values.length) (hfds : fds.length = maps.count true) :
    Carries (s.message values maps fds) (values.zip maps) fds ∧
      encodes (s.message values maps fds) = true := by
  have hmax : MAX_FD_ENTRIES = 240 := rfl
  have hsize : UInt16.size = 65536 := rfl
  have hpos := List.length_pos_iff.mpr hvalues
  have hmapped := mapped_length hmaps
  have hcount : maps.count true ≤ maps.length := List.count_le_length
  have hlength : (values.zip maps).length = values.length := by
    rw [List.length_zip, hmaps, Nat.min_self]
  have hentries : (s.message values maps fds).entries = entriesOf (values.zip maps) :=
    (entriesOf_zip values maps).symm
  have hentryCount : (s.message values maps fds).entryCount.toNat = values.length :=
    UInt16.toNat_ofNat_of_lt (by omega)
  have hfdCount : (s.message values maps fds).fdCount.toNat = maps.count true :=
    UInt16.toNat_ofNat_of_lt (by omega)
  constructor
  · exact {
      entries_eq := hentries
      fds_eq := rfl
      nonempty := by
        rw [← List.length_pos_iff, hlength]
        exact hpos
      entryCount := by rw [hentryCount, hlength]
      length_le := by rw [hlength]; exact hle
      fdCount := by rw [hfdCount, hmapped]
      paired := by rw [hfds, hmapped] }
  · have hne : (s.message values maps fds).entryCount ≠ 0 := by
      intro hzero
      rw [hzero] at hentryCount
      exact hpos.ne hentryCount
    have hvalid : ∀ entry ∈ (s.message values maps fds).entries, entryValid entry = true := by
      rw [hentries, entriesOf, List.forall_mem_map]
      intro request _
      exact entryValid_entryOf request.1 request.2
    have hmaps : UInt16.ofNat (mapCount (s.message values maps fds).entries) =
        (s.message values maps fds).fdCount := by
      rw [hentries, mapCount_entriesOf, hmapped]
      rfl
    rw [encodes, decide_eq_true_eq]
    refine ⟨hne, by omega, hvalid, hmaps, ?_⟩
    rw [hentryCount, MAX_PACKET_BYTES]
    omega

/-- A batch closes its descriptors. When it succeeds, its calls have been made. -/
theorem transfer_effects (file : Fd → Option Nat) (s : Sender Fd) {values : List Mapping}
    {maps : List Bool} {fds : List Fd} (hvalues : values ≠ [])
    (hle : values.length ≤ MAX_FD_ENTRIES) (hmaps : maps.length = values.length)
    (hfds : fds.length = maps.count true) (fate : Fate) :
    ∃ sent calls,
      Effects (values.zip maps) fds s (transfer file s values maps fds fate).1 sent calls ∧
      ((transfer file s values maps fds fate).2 = .ok () →
        sent.length = 1 ∧ Complete (values.zip maps) fds sent calls) := by
  have hsize : ¬ (values.length = 0 ∨ values.length > MAX_FD_ENTRIES) := by
    have hpos := List.length_pos_iff.mpr hvalues
    omega
  obtain ⟨hcarries, hencodes⟩ := message_carries s hvalues hle hmaps hfds
  unfold transfer
  rw [if_neg hsize]
  dsimp only
  rw [if_neg (not_not.mpr hencodes)]
  -- What holds of the one packet, once it is sent.
  have hentries : [s.message values maps fds].flatMap Message.entries =
      entriesOf (values.zip maps) := by
    rw [List.flatMap_singleton, hcarries.entries_eq]
  have hpackets : ∀ message ∈ [s.message values maps fds], ∃ requests fds,
      Carries message requests fds :=
    List.forall_mem_singleton.mpr ⟨_, _, hcarries⟩
  cases fate with
  | sendFails =>
    refine ⟨[], [], ?_, ?_⟩
    · exact {
        sent_eq := (List.append_nil _).symm
        closed_eq := rfl
        calls_eq := (List.append_nil _).symm
        packets := fun _ hmem => absurd hmem (List.not_mem_nil)
        entries_prefix := List.nil_prefix
        fds_prefix := List.nil_prefix
        calls_prefix := List.nil_prefix }
    · intro h
      cases h
  | unreceived =>
    refine ⟨[s.message values maps fds], [], ?_, ?_⟩
    · exact {
        sent_eq := rfl
        closed_eq := rfl
        calls_eq := (List.append_nil _).symm
        packets := hpackets
        entries_prefix := hentries ▸ List.prefix_rfl
        fds_prefix := by rw [List.flatMap_singleton]; exact List.prefix_rfl
        calls_prefix := List.nil_prefix }
    · intro h
      cases h
  | served acknowledged =>
    obtain ⟨calls, hcalls, hprefixed, hall⟩ := deliver_spec file s.receiver hcarries
    refine ⟨[s.message values maps fds], calls, ?_, ?_⟩
    · exact {
        sent_eq := rfl
        closed_eq := rfl
        calls_eq := hcalls
        packets := hpackets
        entries_prefix := hentries ▸ List.prefix_rfl
        fds_prefix := by rw [List.flatMap_singleton]; exact List.prefix_rfl
        calls_prefix := hprefixed }
    · intro h
      have hack := eq_of_await h
      exact ⟨rfl, ⟨hentries, List.flatMap_singleton _ _, hall hack⟩⟩

/-! ### The batches -/

/-- A range and what follows it. -/
theorem range_append_drop {α : Type} (items : List α) {first last : Nat} (h : first ≤ last) :
    range items first last ++ items.drop last = items.drop first := by
  rw [range, ← Nat.add_sub_cancel' h, ← List.drop_drop, Nat.add_sub_cancel_left]
  exact List.take_append_drop _ _

/-- What comes before a range and the range. -/
theorem take_append_range {α : Type} (items : List α) {first last : Nat} (h : first ≤ last) :
    items.take first ++ range items first last = items.take last := by
  rw [range, ← Nat.add_sub_cancel' h, Nat.add_sub_cancel_left, List.take_add]

/-- The length of a range. -/
theorem range_length {α : Type} {items : List α} {first last : Nat} (h : last ≤ items.length) :
    (range items first last).length = last - first := by
  rw [range, List.length_take, List.length_drop]
  omega

/-- The range of pairs. -/
theorem range_zip {α β : Type} (left : List α) (right : List β) (first last : Nat) :
    range (left.zip right) first last = (range left first last).zip (range right first last) := by
  rw [range, range, range, List.zip, List.drop_zipWith, List.take_zipWith]

/-- The batch `[offset, last)` of the requests, with the descriptors of its `MAP` requests, and where
the next one starts. The cursor into the descriptors is the number of `MAP` requests before the
batch. -/
structure Batch (values : List Mapping) (maps : List Bool) (fds : List Fd)
    (offset last fdIndex count : Nat) : Prop where
  nonempty : range values offset last ≠ []
  length_le : (range values offset last).length ≤ MAX_FD_ENTRIES
  maps_length : (range maps offset last).length = (range values offset last).length
  fds_length : (range fds fdIndex (fdIndex + count)).length = (range maps offset last).count true
  requests_eq : (values.zip maps).drop offset =
    (range values offset last).zip (range maps offset last) ++
      (values.zip maps).drop (offset + MAX_FD_ENTRIES)
  fds_eq : fds.drop fdIndex =
    range fds fdIndex (fdIndex + count) ++ fds.drop (fdIndex + count)
  next : fdIndex + count = (maps.take (offset + MAX_FD_ENTRIES)).count true

/-- The loop is at such a batch as long as its offset is in the list. -/
theorem batch_of_lt {values : List Mapping} {maps : List Bool} {fds : List Fd}
    (hmaps : maps.length = values.length) (hfds : fds.length = maps.count true)
    {offset fdIndex : Nat} (hlt : offset < values.length)
    (hindex : fdIndex = (maps.take offset).count true) :
    Batch values maps fds offset (min values.length (offset + MAX_FD_ENTRIES)) fdIndex
      ((range maps offset (min values.length (offset + MAX_FD_ENTRIES))).count true) := by
  have hmax : MAX_FD_ENTRIES = 240 := rfl
  have hzip : (values.zip maps).length = values.length := by
    rw [List.length_zip, hmaps, Nat.min_self]
  generalize hlast : min values.length (offset + MAX_FD_ENTRIES) = last
  generalize hcount : (range maps offset last).count true = count
  have hle : offset ≤ last := by omega
  have htake : (maps.take last).count true = fdIndex + count := by
    rw [← take_append_range maps hle, List.count_append, hindex, hcount]
  have hfit : fdIndex + count ≤ fds.length := by
    rw [← htake, hfds]
    exact (List.take_sublist _ _).count_le _
  -- Behind the last batch, the offset has left the list.
  have hnext : (values.zip maps).drop last =
      (values.zip maps).drop (offset + MAX_FD_ENTRIES) := by
    rw [← hlast, ← hzip, Nat.min_comm, ← List.drop_eq_drop_min]
  exact {
    nonempty := by
      rw [← List.length_pos_iff, range_length (by omega)]
      omega
    length_le := by
      rw [range_length (by omega)]
      omega
    maps_length := by rw [range_length (by omega), range_length (by omega)]
    fds_length := by rw [range_length hfit, hcount, Nat.add_sub_cancel_left]
    requests_eq := by rw [← hnext, ← range_append_drop _ hle, range_zip]
    fds_eq := (range_append_drop fds (Nat.le_add_right _ _)).symm
    next := by rw [← htake, ← hlast, ← hmaps, Nat.min_comm, ← List.take_eq_take_min] }

/-- The batches from an offset on. -/
theorem transferLoop_effects (file : Fd → Option Nat) (fates : Nat → Fate) {values : List Mapping}
    {maps : List Bool} {fds : List Fd} (hmaps : maps.length = values.length)
    (hfds : fds.length = maps.count true) (n : Nat) (s : Sender Fd) (offset fdIndex batches : Nat)
    (hn : values.length - offset = n) (hindex : fdIndex = (maps.take offset).count true) :
    ∃ sent calls,
      Effects ((values.zip maps).drop offset) (fds.drop fdIndex) s
        (transferLoop file fates values maps fds s offset fdIndex batches).1 sent calls ∧
      ∀ count, (transferLoop file fates values maps fds s offset fdIndex batches).2 = .ok count →
        count = batches + sent.length ∧
          Complete ((values.zip maps).drop offset) (fds.drop fdIndex) sent calls := by
  induction n using Nat.strongRecOn generalizing s offset fdIndex batches with
  | ind n ih =>
    rw [transferLoop]
    split
    · next hlt =>
      have hmax : MAX_FD_ENTRIES = 240 := rfl
      have hbatch := batch_of_lt hmaps hfds hlt hindex
      dsimp only
      generalize min values.length (offset + MAX_FD_ENTRIES) = last at hbatch ⊢
      generalize (range maps offset last).count true = count at hbatch ⊢
      have hmapped : (range fds fdIndex (fdIndex + count)).length =
          (mapped ((range values offset last).zip (range maps offset last))).length := by
        rw [hbatch.fds_length, mapped_length hbatch.maps_length]
      rw [hbatch.requests_eq, hbatch.fds_eq]
      obtain ⟨sent, calls, heffects, hcomplete⟩ := transfer_effects file s hbatch.nonempty
        hbatch.length_le hbatch.maps_length hbatch.fds_length (fates batches)
      cases htransfer : transfer file s (range values offset last) (range maps offset last)
          (range fds fdIndex (fdIndex + count)) (fates batches) with
      | mk s₁ result =>
        rw [htransfer] at heffects hcomplete
        cases result with
        | error error =>
          refine ⟨sent, calls, heffects.stop hmapped _ _, ?_⟩
          intro count h
          cases h
        | ok _ =>
          obtain ⟨hone, hcomplete⟩ := hcomplete rfl
          obtain ⟨sent', calls', heffects', hcomplete'⟩ := ih _ (by omega) s₁
            (offset + MAX_FD_ENTRIES) (fdIndex + count) (batches + 1) rfl hbatch.next
          refine ⟨sent ++ sent', calls ++ calls', heffects.append hcomplete hmapped heffects', ?_⟩
          intro total h
          obtain ⟨htotal, hrest⟩ := hcomplete' total h
          refine ⟨?_, hcomplete.append hmapped hrest⟩
          rw [List.length_append]
          omega
    · next hge =>
      -- No request is left, and so no descriptor.
      have hrequests : (values.zip maps).drop offset = [] := by
        rw [List.drop_eq_nil_iff, List.length_zip]
        omega
      have hall : fds.drop fdIndex = [] := by
        rw [List.drop_eq_nil_iff, hindex, List.take_of_length_le (by omega), hfds]
      rw [hrequests, hall]
      refine ⟨[], [], ?_, ?_⟩
      · exact {
          sent_eq := (List.append_nil _).symm
          closed_eq := (List.append_nil _).symm
          calls_eq := (List.append_nil _).symm
          packets := fun _ hmem => absurd hmem List.not_mem_nil
          entries_prefix := List.prefix_rfl
          fds_prefix := List.prefix_rfl
          calls_prefix := List.prefix_rfl }
      · intro count h
        cases h
        exact ⟨rfl, ⟨rfl, rfl, rfl⟩⟩

/-! ### Batches that nothing disturbs -/

/-- The cache applies the requests in order, each `MAP` with the next descriptor. -/
def applied (file : Fd → Option Nat) : Worker → List Request → List Fd → Except ServeError Worker
  | cache, [], _ => .ok cache
  | cache, (value, false) :: requests, fds =>
    match Cache.retire cache value with
    | .error error => .error (.cache error)
    | .ok cache => applied file cache requests fds
  | cache, (value, true) :: requests, fd :: fds =>
    match addFile cache value (file fd) with
    | .error error => .error error
    | .ok cache => applied file cache requests fds
  | _, (_, true) :: _, [] => .error .indexError

/-- The cache is between two batches when the first ones have been applied. -/
theorem applied_append (file : Fd → Option Nat) {requests requests' : List Request}
    {fds fds' : List Fd} (hfds : fds.length = (mapped requests).length) {cache final : Worker}
    (h : applied file cache (requests ++ requests') (fds ++ fds') = .ok final) :
    ∃ between, applied file cache requests fds = .ok between ∧
      applied file between requests' fds' = .ok final := by
  induction requests generalizing cache fds with
  | nil =>
    rw [List.length_eq_zero_iff.mp hfds] at h
    exact ⟨cache, rfl, h⟩
  | cons request requests ih =>
    obtain ⟨value, map⟩ := request
    cases map with
    | false =>
      simp only [List.cons_append, applied] at h ⊢
      cases hretire : Cache.retire cache value with
      | error error =>
        rw [hretire] at h
        cases h
      | ok next =>
        rw [hretire] at h
        exact ih hfds h
    | true =>
      cases fds with
      | nil => cases hfds
      | cons fd fds =>
        simp only [List.cons_append, applied] at h ⊢
        cases hadd : addFile cache value (file fd) with
        | error error =>
          rw [hadd] at h
          cases h
        | ok next =>
          rw [hadd] at h
          exact ih (Nat.succ.inj hfds) h

/-- The receiver is as it was, up to its cache, its calls and the descriptors it has closed. -/
structure Receiver.Like (receiver receiver' : Receiver Fd) : Prop where
  sessionGeneration : receiver'.sessionGeneration = receiver.sessionGeneration
  running : receiver'.running = receiver.running

/-- An entry that the cache accepts is applied. -/
theorem applyEntry_applied (file : Fd → Option Nat) (s : Serving Fd) (request : Request)
    {requests : List Request} {fds : List Fd} {final : Worker}
    (hreceived : s.received.drop s.fdIndex = fds.map some)
    (h : applied file s.receiver.cache (request :: requests) fds = .ok final) :
    ∃ s' fds', applyEntry file s (entryOf request.1 request.2) = (s', .ok ()) ∧
      s'.received.drop s'.fdIndex = fds'.map some ∧ s.receiver.Like s'.receiver ∧
      applied file s'.receiver.cache requests fds' = .ok final := by
  obtain ⟨value, map⟩ := request
  cases map with
  | false =>
    simp only [applied] at h
    cases hretire : Cache.retire s.receiver.cache value with
    | error error =>
      rw [hretire] at h
      cases h
    | ok cache =>
      rw [hretire] at h
      replace h : applied file cache requests fds = .ok final := h
      -- A `RETIRE` entry has the three ids of its value.
      have hsame : Cache.retire s.receiver.cache (mappingOf (entryOf value false)) = .ok cache :=
        hretire
      have hentry : applyRetire s (mappingOf (entryOf value false)) = ({ s with
          receiver := { s.receiver with
            cache := cache
            calls := s.receiver.calls ++
              [.retire value.bufferId value.generation value.allocationId] } }, .ok ()) := by
        simp only [applyRetire, hsame]
        rfl
      exact ⟨_, fds, hentry, hreceived, ⟨rfl, rfl⟩, h⟩
  | true =>
    cases fds with
    | nil => cases h
    | cons fd fds =>
      simp only [applied] at h
      have hfd : s.received[s.fdIndex]? = some (some fd) := by
        rw [← List.head?_drop, hreceived]
        rfl
      have hrest : s.received.drop (s.fdIndex + 1) = fds.map some := by
        rw [← List.drop_drop, hreceived]
        rfl
      cases hadd : addFile s.receiver.cache value (file fd) with
      | error error =>
        rw [hadd] at h
        cases h
      | ok cache =>
        rw [hadd] at h
        replace h : applied file cache requests fds = .ok final := h
        have hentry : applyMap file s (mappingOf (entryOf value true)) = ({ s with
            receiver := { s.receiver with
              cache := cache
              calls := s.receiver.calls ++ [.add value fd]
              closed := s.receiver.closed ++ [fd] }
            received := s.received.set s.fdIndex none
            fdIndex := s.fdIndex + 1 }, .ok ()) := by
          rw [mappingOf_entryOf_true]
          simp only [applyMap, hfd, hadd, Nat.add_sub_cancel]
        refine ⟨_, fds, hentry, ?_, ⟨rfl, rfl⟩, h⟩
        show (s.received.set s.fdIndex none).drop (s.fdIndex + 1) = _
        rw [List.drop_set_of_lt (Nat.lt_succ_self _), hrest]

/-- Entries that the cache accepts are all applied. -/
theorem applyEntries_applied (file : Fd → Option Nat) (requests : List Request) (s : Serving Fd)
    {fds : List Fd} {final : Worker} (hreceived : s.received.drop s.fdIndex = fds.map some)
    (h : applied file s.receiver.cache requests fds = .ok final) :
    ∃ s', applyEntries file s (entriesOf requests) = (s', .ok ()) ∧
      s.receiver.Like s'.receiver ∧ s'.receiver.cache = final := by
  induction requests generalizing s fds with
  | nil =>
    cases h
    exact ⟨s, rfl, ⟨rfl, rfl⟩, rfl⟩
  | cons request requests ih =>
    obtain ⟨s₁, fds₁, hentry, hreceived₁, hlike₁, h₁⟩ := applyEntry_applied file s request hreceived h
    obtain ⟨s', hentries, hlike, hcache⟩ := ih s₁ hreceived₁ h₁
    refine ⟨s', ?_, ⟨hlike.1.trans hlike₁.1, hlike.2.trans hlike₁.2⟩, hcache⟩
    rw [entriesOf, List.map_cons, applyEntries, hentry]
    exact hentries

/-- A packet that the cache accepts is acknowledged with `OK`. -/
theorem serve_applied (file : Fd → Option Nat) (receiver : Receiver Fd) {message : Message Fd}
    {requests : List Request} {fds : List Fd} (hcarries : Carries message requests fds)
    (hgeneration : message.sessionGeneration = receiver.sessionGeneration) {final : Worker}
    (h : applied file receiver.cache requests fds = .ok final) :
    ∃ receiver', serve file receiver message = (receiver', some true) ∧
      receiver.Like receiver' ∧ receiver'.cache = final := by
  obtain ⟨s', hentries, hlike, hcache⟩ :=
    applyEntries_applied file requests ⟨receiver, fds.map some, 0⟩ rfl h
  refine ⟨s'.receiver, ?_, hlike, hcache⟩
  unfold serve
  rw [if_neg (not_not.mpr hcarries.decodes)]
  dsimp only
  rw [if_neg (not_not.mpr hgeneration), hcarries.entries_eq, hcarries.fds_eq, hentries]

/-- The receiver serves a session of its generation and still runs. -/
structure Sender.Served (s : Sender Fd) : Prop where
  running : s.receiver.running = true
  generation : s.receiver.sessionGeneration = s.generation

/-- A batch that is served, accepted and acknowledged succeeds. -/
theorem transfer_applied (file : Fd → Option Nat) (s : Sender Fd) {values : List Mapping}
    {maps : List Bool} {fds : List Fd} (hvalues : values ≠ [])
    (hle : values.length ≤ MAX_FD_ENTRIES) (hmaps : maps.length = values.length)
    (hfds : fds.length = maps.count true) (hserved : s.Served) {final : Worker}
    (h : applied file s.receiver.cache (values.zip maps) fds = .ok final) :
    ∃ s', transfer file s values maps fds (.served true) = (s', .ok ()) ∧ s'.Served ∧
      s'.receiver.cache = final := by
  have hsize : ¬ (values.length = 0 ∨ values.length > MAX_FD_ENTRIES) := by
    have hpos := List.length_pos_iff.mpr hvalues
    omega
  obtain ⟨hcarries, hencodes⟩ := message_carries s hvalues hle hmaps hfds
  obtain ⟨receiver', hserve, hlike, hcache⟩ :=
    serve_applied file s.receiver hcarries hserved.generation.symm h
  have htransfer : transfer file s values maps fds (.served true) = ({ s with
      nextTransfer := s.nextTransfer + 1
      nextRequest := s.nextRequest + 1
      closed := s.closed ++ fds
      sent := s.sent ++ [s.message values maps fds]
      receiver := receiver' }, .ok ()) := by
    unfold transfer
    rw [if_neg hsize]
    dsimp only
    rw [if_neg (not_not.mpr hencodes)]
    rw [deliver, if_pos hserved.running, hserve]
    rfl
  exact ⟨_, htransfer,
    ⟨hlike.running.trans hserved.running, hlike.sessionGeneration.trans hserved.generation⟩, hcache⟩

/-- The batches from an offset on succeed when each of them is served and acknowledged, and the cache
accepts their requests. -/
theorem transferLoop_applied (file : Fd → Option Nat) (fates : Nat → Fate) {values : List Mapping}
    {maps : List Bool} {fds : List Fd} (hmaps : maps.length = values.length)
    (hfds : fds.length = maps.count true) (hfates : ∀ n, fates n = .served true)
    (n : Nat) (s : Sender Fd) (offset fdIndex batches : Nat) (hn : values.length - offset = n)
    (hindex : fdIndex = (maps.take offset).count true) (hserved : s.Served) {final : Worker}
    (h : applied file s.receiver.cache ((values.zip maps).drop offset) (fds.drop fdIndex) =
      .ok final) :
    ∃ s' count, transferLoop file fates values maps fds s offset fdIndex batches = (s', .ok count) ∧
      s'.receiver.cache = final := by
  induction n using Nat.strongRecOn generalizing s offset fdIndex batches with
  | ind n ih =>
    rw [transferLoop]
    split
    · next hlt =>
      have hmax : MAX_FD_ENTRIES = 240 := rfl
      have hbatch := batch_of_lt hmaps hfds hlt hindex
      dsimp only
      generalize min values.length (offset + MAX_FD_ENTRIES) = last at hbatch ⊢
      generalize (range maps offset last).count true = count at hbatch ⊢
      rw [hbatch.requests_eq, hbatch.fds_eq] at h
      obtain ⟨between, hfirst, hrest⟩ := applied_append file
        (by rw [hbatch.fds_length, mapped_length hbatch.maps_length]) h
      obtain ⟨s₁, htransfer, hserved₁, rfl⟩ := transfer_applied file s hbatch.nonempty
        hbatch.length_le hbatch.maps_length hbatch.fds_length hserved hfirst
      rw [hfates, htransfer]
      exact ih _ (by omega) s₁ (offset + MAX_FD_ENTRIES) (fdIndex + count) (batches + 1) rfl
        hbatch.next hserved₁ hrest
    · next hge =>
      have hrequests : (values.zip maps).drop offset = [] := by
        rw [List.drop_eq_nil_iff, List.length_zip]
        omega
      rw [hrequests] at h
      cases h
      exact ⟨s, batches, rfl, rfl⟩

/-- Every packet of a call has between 1 and 240 entries and counts its `MAP` entries, and has as
many descriptors. The entries of the packets are those of the requests in order, and the
descriptors those of the call, up to the end or to the batch that fails. The receiver makes the
calls of the requests in order, and its `i`-th `add` is that of the `i`-th `MAP` request, with the
`i`-th descriptor. The session closes every descriptor once, whatever fails.

A call that returns has done all of this for every request. It returns when every packet is served
and acknowledged, the receiver runs in the generation of the session, and the cache accepts the
requests in order, and then the cache is the one that the requests lead to. -/
theorem transferBatched_pairs (file : Fd → Option Nat) (fates : Nat → Fate) (s : Sender Fd)
    (values : List Mapping) (maps : List Bool) (fds : List Fd)
    (hmaps : maps.length = values.length) (hfds : fds.length = maps.count true) :
    ∃ sent calls,
      (transferBatched file fates s values maps fds).1.sent = s.sent ++ sent ∧
      (transferBatched file fates s values maps fds).1.receiver.calls =
        s.receiver.calls ++ calls ∧
      (transferBatched file fates s values maps fds).1.closed = s.closed ++ fds ∧
      (∀ message ∈ sent, message.entries ≠ [] ∧ message.entries.length ≤ 240 ∧
        message.entryCount.toNat = message.entries.length ∧
        message.fdCount.toNat = mapCount message.entries ∧
        message.fds.length = mapCount message.entries) ∧
      sent.flatMap Message.entries <+: List.zipWith entryOf values maps ∧
      sent.flatMap Message.fds <+: fds ∧
      calls <+: paired (values.zip maps) fds ∧
      calls.filterMap CacheCall.added <+: (mapped (values.zip maps)).zip fds ∧
      (∀ count, (transferBatched file fates s values maps fds).2 = .ok count →
        sent.length = count ∧
        sent.flatMap Message.entries = List.zipWith entryOf values maps ∧
        sent.flatMap Message.fds = fds ∧
        calls = paired (values.zip maps) fds ∧
        calls.filterMap CacheCall.added = (mapped (values.zip maps)).zip fds) ∧
      ((∀ n, fates n = .served true) → s.Served →
        ∀ cache, applied file s.receiver.cache (values.zip maps) fds = .ok cache →
        (transferBatched file fates s values maps fds).2 = .ok sent.length ∧
        (transferBatched file fates s values maps fds).1.receiver.cache = cache) := by
  obtain ⟨sent, calls, heffects, hcomplete⟩ := transferLoop_effects file fates hmaps hfds
    (values.length - 0) s 0 0 0 rfl rfl
  rw [List.drop_zero, List.drop_zero] at heffects hcomplete
  refine ⟨sent, calls, heffects.sent_eq, heffects.calls_eq, heffects.closed_eq, ?_, ?_,
    heffects.fds_prefix, heffects.calls_prefix, ?_, ?_, ?_⟩
  · intro message hmem
    obtain ⟨requests, fds, hcarries⟩ := heffects.packets message hmem
    have hlength : message.entries.length = requests.length := by
      rw [hcarries.entries_eq, entriesOf, List.length_map]
    have hcount : mapCount message.entries = (mapped requests).length := by
      rw [hcarries.entries_eq, mapCount_entriesOf]
    refine ⟨?_, ?_, ?_, ?_, ?_⟩
    · rw [← List.length_pos_iff, hlength, List.length_pos_iff]
      exact hcarries.nonempty
    · rw [hlength]
      exact hcarries.length_le
    · rw [hlength, hcarries.entryCount]
    · rw [hcount, hcarries.fdCount]
    · rw [hcount, hcarries.fds_eq, hcarries.paired]
  · rw [← entriesOf_zip]
    exact heffects.entries_prefix
  · rw [← filterMap_added_paired]
    exact heffects.calls_prefix.filterMap _
  · intro count h
    obtain ⟨hcount, hall⟩ := hcomplete count h
    refine ⟨by omega, ?_, hall.fds_eq, hall.calls_eq, ?_⟩
    · rw [hall.entries_eq, entriesOf_zip]
    · rw [hall.calls_eq, filterMap_added_paired]
  · intro hfates hserved cache happlied
    obtain ⟨s', count, hloop, hcache⟩ := transferLoop_applied file fates hmaps hfds hfates
      (values.length - 0) s 0 0 0 rfl rfl hserved happlied
    obtain ⟨hcount, -⟩ := hcomplete count (congrArg Prod.snd hloop)
    rw [Nat.zero_add] at hcount
    refine ⟨?_, ?_⟩
    · rw [← hcount]
      exact congrArg Prod.snd hloop
    · rw [← hcache]
      exact congrArg (fun result => result.1.receiver.cache) hloop

end

/-- A mapping of 8 bytes. -/
def exampleMapping (bufferId : Nat) (writable : Bool) : Mapping where
  bufferId := bufferId
  generation := 1
  allocationId := 1
  byteLength := 8
  writable := writable
  arena := false
  invocationId := 1

/-- A session whose worker has the first of the mappings. -/
def exampleSender : Sender Nat where
  generation := 1
  nextTransfer := 2
  nextRequest := 2
  sent := []
  closed := []
  receiver :=
    { sessionGeneration := 1
      running := true
      cache := fun bufferId => if bufferId = 1 then some (exampleMapping 1 false) else none
      calls := []
      closed := [] }

/-- A read-only mapping is upgraded, and another buffer is mapped. The call returns, the second
descriptor has met the second `MAP` request, and both descriptors are closed. -/
theorem transferBatched_pairs_upgrade :
    ∃ s count, transferBatched (fun _ => some 8) (fun _ => .served true) exampleSender
        [exampleMapping 1 false, exampleMapping 1 true, exampleMapping 2 false]
        [false, true, true] [10, 11] = (s, .ok count) ∧
      s.receiver.calls = [.retire 1 1 1, .add (exampleMapping 1 true) 10,
        .add (exampleMapping 2 false) 11] ∧
      s.receiver.cache 2 = some (exampleMapping 2 false) ∧ s.closed = [10, 11] := by
  obtain ⟨sent, calls, _, hcalls, hclosed, _, _, _, _, _, hall, hok⟩ := transferBatched_pairs
    (fun _ => some 8) (fun _ => .served true) exampleSender
    [exampleMapping 1 false, exampleMapping 1 true, exampleMapping 2 false]
    [false, true, true] [10, 11] rfl rfl
  obtain ⟨hresult, hcache⟩ := hok (fun _ => rfl) ⟨rfl, rfl⟩ _ rfl
  obtain ⟨_, _, _, hpaired, _⟩ := hall _ hresult
  refine ⟨_, sent.length, Prod.ext rfl hresult, ?_, ?_, hclosed⟩
  · rw [hcalls, hpaired]
    rfl
  · rw [hcache]
    rfl

end Wmfs.Session.Transfer
