import Joystream.Startup
import Joystream.Ingestion

/-!
# Interleaved calls

JavaScript runs each stretch of an `async` function to its next `await` without interruption,
and runs the stretches of different calls in any order the event loop picks. A `Node` is the
service together with its in-flight `handleNewContent` calls, each suspended at some `Phase`;
an `Event` is one stretch, of a call, of a call's file stream finishing a write, or of a caller
(`drop`, `cacheCleanup`); `step` runs it. Runs start from a service just reconciled by
`startupInit`. `ReachableBy` restricts the events a run may take; `Reachable` allows them all.

`step` also refuses what the model takes as a contract on callers, one the code does not check:
a new call names an object with no file and no call in flight, and no `drop` names an object in
flight. Every result about reached nodes holds under that contract.

**Theorem (`inv_of_reachable`).** In every node reached from a reconciled service, the file of
a call in flight holds what its stream wrote, the index tracks no object in flight, and every
tracked object has a file.

**Theorem (`contentSizeSum_run`).** After every run from a reconciled service,
`contentSizeSum` equals its value before reconciliation, plus the bytes of the data directory,
plus the bytes still to come of the reserved calls, plus what the failed calls leaked: each
failed call leaves its reservation minus the bytes its file held when it was dropped.

**Theorem (`failed_call_leaks_reservation`).** So a call whose source ends early leaves its
whole reservation counted, with no file and no call in flight.

The proof is the invariant (`Inv`), and one equation per event for the gap between the counter
and the directory (`gap_step`), summed along the run (`gap_run`).
-/

namespace Joystream

/-- An in-flight `handleNewContent` call. -/
structure Ingestion where
  expectedSize : Nat
  phase : Phase
  deriving DecidableEq

namespace Ingestion

/-- The bytes the call's file holds: none before the reservation. -/
def written (t : Ingestion) : Option Nat :=
  match t.phase with
  | .evicting | .evicted => none
  | .streaming _ _ w | .piped _ _ _ w => some w
  | .detecting => some t.expectedSize

/-- The bytes reserved for the call and not yet in its file. -/
def unwritten (t : Ingestion) : Int := t.expectedSize - t.written.getD t.expectedSize

@[simp] theorem unwritten_evicting (e : Nat) : unwritten ⟨e, .evicting⟩ = 0 := by
  simp [unwritten, written]

@[simp] theorem unwritten_evicted (e : Nat) : unwritten ⟨e, .evicted⟩ = 0 := by
  simp [unwritten, written]

@[simp] theorem unwritten_streaming (e r : Nat) (q : List Nat) (w : Nat) :
    unwritten ⟨e, .streaming r q w⟩ = e - w := by
  simp [unwritten, written]

@[simp] theorem unwritten_piped (e : Nat) (err : Bool) (r : Nat) (q : List Nat) (w : Nat) :
    unwritten ⟨e, .piped err r q w⟩ = e - w := by
  simp [unwritten, written]

@[simp] theorem unwritten_detecting (e : Nat) : unwritten ⟨e, .detecting⟩ = 0 := by
  simp [unwritten, written]

theorem unwritten_of_written_none {t : Ingestion} (h : t.written = none) : t.unwritten = 0 := by
  simp [unwritten, h]

theorem written_onSource (e r : Nat) (q : List Nat) (w : Nat) (ev : SourceEvent) :
    written ⟨e, ContentService.onSource e r q w ev⟩ = some w := by
  cases ev with
  | data k => simp only [ContentService.onSource]; split_ifs <;> rfl
  | _ => rfl

theorem written_writeNext {s s' : ContentService} {a : ObjectId} {ph ph' : Phase}
    (h : s.writeNext a ph = some (s', ph')) (e : Nat) :
    ∃ w k, s' = s.onWritten a w k ∧ written ⟨e, ph⟩ = some w ∧ written ⟨e, ph'⟩ = some (w + k) := by
  obtain ⟨w, k, rfl, ⟨r, q, rfl, rfl⟩ | ⟨err, r, q, rfl, rfl⟩⟩ := ContentService.writeNext_eq_some h
  <;> exact ⟨w, k, rfl, rfl, rfl⟩

end Ingestion

/-- The service and its in-flight calls. -/
structure Node where
  service : ContentService
  ingestions : Table Ingestion

/-- One stretch of a call or of a caller. -/
inductive Event where
  /-- A new `handleNewContent` call, up to its first `await`. -/
  | handleNewContent (objectId : ObjectId) (expectedSize : Nat)
  /-- The eviction's 1000 ms wait is over. -/
  | timer (objectId : ObjectId)
  /-- The call resumes after the eviction: it reserves. -/
  | resume (objectId : ObjectId)
  /-- The call's source emits a chunk, ends, or fails. -/
  | source (objectId : ObjectId) (ev : SourceEvent)
  /-- The call's file stream finishes writing the oldest chunk it holds. -/
  | written (objectId : ObjectId)
  /-- The pipeline's callback runs. -/
  | callback (objectId : ObjectId)
  /-- `detectMimeType` resolves inside the callback. -/
  | mimeDetected (objectId : ObjectId)
  /-- A caller drops an object. -/
  | drop (objectId : ObjectId)
  /-- A periodic cleanup, after `fetchSupportedDataObjects` returned `supportedObjects`. -/
  | cacheCleanup (supportedObjects : SupportedObjects)
  deriving DecidableEq

namespace Node

variable (policy : EvictionPolicy) (storage : Nat) (fileType : ObjectId → Option String)

/-- Run one event; `none` when it cannot happen now. -/
def step (n : Node) : Event → Option Node
  | .handleNewContent objectId expectedSize =>
    if objectId ∈ n.service.dataDir ∨ objectId ∈ n.ingestions then none
    else
      let r := n.service.handleNewContent policy storage objectId expectedSize
      some ⟨r.1, n.ingestions.insert objectId ⟨expectedSize, r.2⟩⟩
  | .timer objectId =>
    match n.ingestions.lookup objectId with
    | some ⟨expectedSize, .evicting⟩ =>
      let r := n.service.evictFor policy storage expectedSize
      some ⟨r.1, n.ingestions.insert objectId ⟨expectedSize, r.2⟩⟩
    | _ => none
  | .resume objectId =>
    match n.ingestions.lookup objectId with
    | some ⟨expectedSize, .evicted⟩ =>
      some ⟨n.service.reserve objectId expectedSize,
        n.ingestions.insert objectId ⟨expectedSize, .streaming 0 [] 0⟩⟩
    | _ => none
  | .source objectId ev =>
    match n.ingestions.lookup objectId with
    | some ⟨expectedSize, .streaming r q w⟩ =>
      some ⟨n.service,
        n.ingestions.insert objectId ⟨expectedSize, ContentService.onSource expectedSize r q w ev⟩⟩
    | _ => none
  | .written objectId =>
    match n.ingestions.lookup objectId with
    | some ⟨expectedSize, ph⟩ =>
      (n.service.writeNext objectId ph).map fun p =>
        ⟨p.1, n.ingestions.insert objectId ⟨expectedSize, p.2⟩⟩
    | none => none
  | .callback objectId =>
    match n.ingestions.lookup objectId with
    | some ⟨expectedSize, .piped err r q w⟩ =>
      if err || q.isEmpty then
        match n.service.pipelineCallback objectId expectedSize err r w with
        | (s, some ph) => some ⟨s, n.ingestions.insert objectId ⟨expectedSize, ph⟩⟩
        | (s, none) => some ⟨s, n.ingestions.erase objectId⟩
      else none
    | _ => none
  | .mimeDetected objectId =>
    match n.ingestions.lookup objectId with
    | some ⟨expectedSize, .detecting⟩ =>
      some ⟨n.service.commitContent fileType objectId expectedSize, n.ingestions.erase objectId⟩
    | _ => none
  | .drop objectId =>
    if objectId ∈ n.ingestions then none else some ⟨n.service.drop objectId, n.ingestions⟩
  | .cacheCleanup supportedObjects =>
    some ⟨n.service.cacheCleanup supportedObjects, n.ingestions⟩

/-- Run events in order; `none` as soon as one cannot happen. -/
def run : Node → List Event → Option Node
  | n, [] => some n
  | n, ev :: evs => (n.step policy storage fileType ev).bind (run · evs)

/-- The nodes a run reaches from `n₀` when `admits` allows each event it takes. -/
inductive ReachableBy (admits : Node → Event → Prop) (n₀ : Node) : Node → Prop
  | refl : ReachableBy admits n₀ n₀
  | step {n n' : Node} (ev : Event) : ReachableBy admits n₀ n → admits n ev →
      n.step policy storage fileType ev = some n' → ReachableBy admits n₀ n'

/-- The nodes some run reaches from `n₀`. -/
abbrev Reachable (n₀ n : Node) : Prop :=
  ReachableBy policy storage fileType (fun _ _ => True) n₀ n

variable {policy storage fileType} in
theorem run_cons {n n' : Node} {ev : Event} {evs : List Event} :
    n.run policy storage fileType (ev :: evs) = some n' ↔
      ∃ m, n.step policy storage fileType ev = some m ∧ m.run policy storage fileType evs = some n' :=
  Option.bind_eq_some

variable {policy storage fileType} in
theorem ReachableBy.reachable {admits : Node → Event → Prop} {n₀ n : Node}
    (h : ReachableBy policy storage fileType admits n₀ n) : Reachable policy storage fileType n₀ n := by
  induction h with
  | refl => exact .refl
  | step ev _ _ hs ih => exact .step ev ih trivial hs

variable {policy storage fileType} in
theorem reachable_of_run {n₀ n : Node} (evs : List Event)
    (h : n₀.run policy storage fileType evs = some n) : Reachable policy storage fileType n₀ n := by
  suffices ∀ m, Reachable policy storage fileType n₀ m → m.run policy storage fileType evs = some n →
      Reachable policy storage fileType n₀ n from this n₀ .refl h
  clear h
  induction evs with
  | nil => intro m hm h; cases h; exact hm
  | cons ev evs ih =>
    intro m hm h
    obtain ⟨m', hs, hr⟩ := run_cons.1 h
    exact ih m' (.step ev hm trivial hs) hr

variable {policy storage fileType} in
theorem run_append (n : Node) (l₁ l₂ : List Event) :
    n.run policy storage fileType (l₁ ++ l₂) =
      (n.run policy storage fileType l₁).bind (run policy storage fileType · l₂) := by
  induction l₁ generalizing n with
  | nil => rfl
  | cons ev l₁ ih =>
    simp only [List.cons_append, run]
    cases n.step policy storage fileType ev <;> simp [ih]

/-- The node right after `startupInit`, with no call in flight. -/
def started (supportedObjects : SupportedObjects) (s : ContentService) : Node :=
  ⟨s.startupInit fileType supportedObjects, ∅⟩

/-! ## What each event can do -/

variable {policy storage fileType} {n n' : Node}

theorem step_handleNewContent {a : ObjectId} {e : Nat}
    (h : n.step policy storage fileType (.handleNewContent a e) = some n') :
    a ∉ n.service.dataDir ∧ a ∉ n.ingestions ∧
      n' = ⟨(n.service.handleNewContent policy storage a e).1,
        n.ingestions.insert a ⟨e, (n.service.handleNewContent policy storage a e).2⟩⟩ := by
  simp only [step] at h
  split_ifs at h with hc
  push_neg at hc
  exact ⟨hc.1, hc.2, (Option.some.inj h).symm⟩

theorem step_timer {a : ObjectId} (h : n.step policy storage fileType (.timer a) = some n') :
    ∃ e, n.ingestions.lookup a = some ⟨e, .evicting⟩ ∧
      n' = ⟨(n.service.evictFor policy storage e).1,
        n.ingestions.insert a ⟨e, (n.service.evictFor policy storage e).2⟩⟩ := by
  simp only [step] at h
  split at h
  · exact ⟨_, ‹_›, (Option.some.inj h).symm⟩
  · cases h

theorem step_resume {a : ObjectId} (h : n.step policy storage fileType (.resume a) = some n') :
    ∃ e, n.ingestions.lookup a = some ⟨e, .evicted⟩ ∧
      n' = ⟨n.service.reserve a e, n.ingestions.insert a ⟨e, .streaming 0 [] 0⟩⟩ := by
  simp only [step] at h
  split at h
  · exact ⟨_, ‹_›, (Option.some.inj h).symm⟩
  · cases h

theorem step_source {a : ObjectId} {ev : SourceEvent}
    (h : n.step policy storage fileType (.source a ev) = some n') :
    ∃ e r q w, n.ingestions.lookup a = some ⟨e, .streaming r q w⟩ ∧
      n' = ⟨n.service, n.ingestions.insert a ⟨e, ContentService.onSource e r q w ev⟩⟩ := by
  simp only [step] at h
  split at h
  · exact ⟨_, _, _, _, ‹_›, (Option.some.inj h).symm⟩
  · cases h

theorem step_written {a : ObjectId} (h : n.step policy storage fileType (.written a) = some n') :
    ∃ e ph s' ph', n.ingestions.lookup a = some ⟨e, ph⟩ ∧ n.service.writeNext a ph = some (s', ph') ∧
      n' = ⟨s', n.ingestions.insert a ⟨e, ph'⟩⟩ := by
  simp only [step] at h
  split at h
  · obtain ⟨⟨s', ph'⟩, hw, rfl⟩ := Option.map_eq_some'.1 h
    exact ⟨_, _, s', ph', ‹_›, hw, rfl⟩
  · cases h

theorem step_callback {a : ObjectId} (h : n.step policy storage fileType (.callback a) = some n') :
    ∃ e err r q w, n.ingestions.lookup a = some ⟨e, .piped err r q w⟩ ∧ (err || q.isEmpty) = true ∧
      ((err = false ∧ w = r ∧ w = e ∧ n' = ⟨n.service, n.ingestions.insert a ⟨e, .detecting⟩⟩) ∨
       (¬(err = false ∧ w = r ∧ w = e) ∧ n' = ⟨n.service.drop a, n.ingestions.erase a⟩)) := by
  simp only [step] at h
  split at h
  · rename_i e err r q w hl
    split_ifs at h with hq
    refine ⟨e, err, r, q, w, hl, hq, ?_⟩
    by_cases hok : err = false ∧ w = r ∧ w = e
    · obtain ⟨rfl, rfl, rfl⟩ := hok
      rw [ContentService.pipelineCallback_ok] at h
      exact .inl ⟨rfl, rfl, rfl, (Option.some.inj h).symm⟩
    · rw [ContentService.pipelineCallback_of_not_ok _ _ hok] at h
      exact .inr ⟨hok, (Option.some.inj h).symm⟩
  · cases h

theorem step_mimeDetected {a : ObjectId}
    (h : n.step policy storage fileType (.mimeDetected a) = some n') :
    ∃ e, n.ingestions.lookup a = some ⟨e, .detecting⟩ ∧
      n' = ⟨n.service.commitContent fileType a e, n.ingestions.erase a⟩ := by
  simp only [step] at h
  split at h
  · exact ⟨_, ‹_›, (Option.some.inj h).symm⟩
  · cases h

theorem step_drop {a : ObjectId} (h : n.step policy storage fileType (.drop a) = some n') :
    a ∉ n.ingestions ∧ n' = ⟨n.service.drop a, n.ingestions⟩ := by
  simp only [step] at h
  split_ifs at h with ha
  exact ⟨ha, (Option.some.inj h).symm⟩

theorem step_cacheCleanup {S : SupportedObjects}
    (h : n.step policy storage fileType (.cacheCleanup S) = some n') :
    n' = ⟨n.service.cacheCleanup S, n.ingestions⟩ :=
  (Option.some.inj h).symm

/-! ## The invariant -/

/-- What every node reached from a reconciled service keeps. -/
structure Inv (n : Node) : Prop where
  /-- An in-flight call's file holds what its stream wrote; before the reservation there is none. -/
  file : ∀ a t, n.ingestions.lookup a = some t → n.service.dataDir.lookup a = t.written
  /-- The index tracks no object in flight. -/
  not_cached : ∀ a ∈ n.ingestions, a ∉ n.service.stateCache.cached
  /-- Every tracked object has a file. -/
  cached_file : ∀ a ∈ n.service.stateCache.cached, a ∈ n.service.dataDir

theorem Inv.not_mem_cached {n : Node} (hI : Inv n) {a : ObjectId} (ha : a ∉ n.service.dataDir) :
    a ∉ n.service.stateCache.cached :=
  fun h => ha (hI.cached_file a h)

/-- Removing objects none of which is in flight keeps the invariant. -/
theorem Inv.dropSet {n : Node} (hI : Inv n) {p : ObjectId → Bool}
    (hp : ∀ a ∈ n.ingestions, p a = false) : Inv ⟨n.service.dropSet p, n.ingestions⟩ := by
  refine ⟨fun a t ht => ?_, fun a ha => ?_, fun a ha => ?_⟩
  · simp [ContentService.dropSet, hp a (mem_of_lookup_eq_some ht), hI.file a t ht]
  · simp only [ContentService.dropSet, mem_restrict, not_and]
    exact fun _ => hI.not_cached a ha
  · simp only [ContentService.dropSet, mem_restrict] at ha ⊢
    exact ⟨ha.1, hI.cached_file a ha.2⟩

variable (policy storage) in
theorem Inv.evictFor {n : Node} (hI : Inv n) (e : Nat) :
    Inv ⟨(n.service.evictFor policy storage e).1, n.ingestions⟩ := by
  obtain ⟨p, hp, he⟩ := n.service.evictFor_eq_dropSet policy storage e
  rw [he]
  exact hI.dropSet fun a ha => Bool.eq_false_iff.2 fun h => hI.not_cached a ha (hp a h)

variable (policy storage) in
theorem evictFor_written (s : ContentService) (e : Nat) :
    Ingestion.written ⟨e, (s.evictFor policy storage e).2⟩ = none := by
  simp only [ContentService.evictFor, Ingestion.written]
  split_ifs <;> rfl

theorem Inv.update {n : Node} (hI : Inv n) {a : ObjectId} (hnc : a ∉ n.service.stateCache.cached)
    {s : ContentService} (t : Ingestion) (hc : s.stateCache = n.service.stateCache)
    (ha : s.dataDir.lookup a = t.written)
    (hb : ∀ b, b ≠ a → s.dataDir.lookup b = n.service.dataDir.lookup b) :
    Inv ⟨s, n.ingestions.insert a t⟩ := by
  refine ⟨fun b u hu => ?_, fun b hb' => ?_, fun b hb' => ?_⟩
  · by_cases hba : b = a
    · subst hba
      rw [AList.lookup_insert, Option.some.injEq] at hu
      rw [← hu, ha]
    · rw [AList.lookup_insert_ne hba] at hu
      rw [hb b hba]; exact hI.file b u hu
  · rw [hc]
    rcases (AList.mem_insert _).1 hb' with rfl | hb'
    · exact hnc
    · exact hI.not_cached b hb'
  · rw [hc] at hb'
    have hba : b ≠ a := fun h => hnc (h ▸ hb')
    rw [← AList.lookup_isSome, hb b hba, AList.lookup_isSome]
    exact hI.cached_file b hb'

theorem Inv.setPhase {n : Node} (hI : Inv n) {a : ObjectId} {t : Ingestion}
    (hl : n.ingestions.lookup a = some t) (t' : Ingestion) (hw : t'.written = t.written) :
    Inv ⟨n.service, n.ingestions.insert a t'⟩ :=
  hI.update (hI.not_cached a (mem_of_lookup_eq_some hl)) t' rfl (by rw [hw, hI.file a t hl])
    fun _ _ => rfl

theorem Inv.insert_unreserved {n : Node} (hI : Inv n) {a : ObjectId} {t : Ingestion}
    (ha : a ∉ n.service.dataDir) (ht : t.written = none) :
    Inv ⟨n.service, n.ingestions.insert a t⟩ :=
  hI.update (hI.not_mem_cached ha) t rfl (by rwa [ht, AList.lookup_eq_none]) fun _ _ => rfl

theorem Inv.reserve {n : Node} (hI : Inv n) {a : ObjectId} (ha : a ∉ n.service.dataDir) (e : Nat) :
    Inv ⟨n.service.reserve a e, n.ingestions.insert a ⟨e, .streaming 0 [] 0⟩⟩ :=
  hI.update (hI.not_mem_cached ha) _ rfl (AList.lookup_insert _)
    fun _ hb => AList.lookup_insert_ne hb

theorem Inv.written {n : Node} (hI : Inv n) {a : ObjectId} {t t' : Ingestion}
    (hl : n.ingestions.lookup a = some t) {w k : Nat} (ht : t'.written = some (w + k)) :
    Inv ⟨n.service.onWritten a w k, n.ingestions.insert a t'⟩ :=
  hI.update (hI.not_cached a (mem_of_lookup_eq_some hl)) t' rfl
    (by rw [ht, ContentService.onWritten_dataDir, AList.lookup_insert])
    fun _ hb => AList.lookup_insert_ne hb

/-- A call that ends by dropping its own object. -/
theorem Inv.dropSelf {n : Node} (hI : Inv n) (a : ObjectId) :
    Inv ⟨n.service.drop a, n.ingestions.erase a⟩ := by
  refine ⟨fun b u hu => ?_, fun b hb => ?_, fun b hb => ?_⟩
  · have hba : b ≠ a := fun h => by subst h; simp [AList.lookup_erase] at hu
    rw [AList.lookup_erase_ne hba] at hu
    rw [ContentService.drop_dataDir, AList.lookup_erase_ne hba]; exact hI.file b u hu
  · have hb' := (AList.mem_erase.1 hb)
    simp only [ContentService.drop_stateCache, StateCache.dropById_cached, AList.mem_erase,
      not_and]
    exact fun _ => hI.not_cached b hb'.2
  · simp only [ContentService.drop_stateCache, StateCache.dropById_cached, AList.mem_erase] at hb
    simp only [ContentService.drop_dataDir, AList.mem_erase]
    exact ⟨hb.1, hI.cached_file b hb.2⟩

/-- A call that commits: its object joins the index, with the file its stream wrote. -/
theorem Inv.commit {n : Node} (hI : Inv n) {a : ObjectId} {e : Nat}
    (hl : n.ingestions.lookup a = some ⟨e, .detecting⟩) :
    Inv ⟨n.service.commitContent fileType a e, n.ingestions.erase a⟩ := by
  refine ⟨fun b u hu => ?_, fun b hb => ?_, fun b hb => ?_⟩
  · have hba : b ≠ a := fun h => by subst h; simp [AList.lookup_erase] at hu
    rw [AList.lookup_erase_ne hba] at hu; exact hI.file b u hu
  · have hb' := AList.mem_erase.1 hb
    simp only [ContentService.commitContent, StateCache.setContentMimeType_cached,
      StateCache.newContent_cached, StateCache.dropPendingDownload_cached, AList.mem_insert,
      not_or]
    exact ⟨hb'.1, hI.not_cached b hb'.2⟩
  · simp only [ContentService.commitContent, StateCache.setContentMimeType_cached,
      StateCache.newContent_cached, StateCache.dropPendingDownload_cached,
      AList.mem_insert] at hb
    rcases hb with rfl | hb
    · have := hI.file b _ hl
      simp only [Ingestion.written] at this
      exact AList.lookup_isSome.1 (by simp [ContentService.commitContent, this])
    · exact hI.cached_file b hb

/-- Every event keeps the invariant. -/
theorem Inv.step {n n' : Node} (hI : Inv n) {ev : Event}
    (h : n.step policy storage fileType ev = some n') : Inv n' := by
  cases ev with
  | handleNewContent a e =>
    obtain ⟨ha, -, rfl⟩ := step_handleNewContent h
    simp only [ContentService.handleNewContent]
    split_ifs
    · have hI' := hI.evictFor policy storage e
      refine hI'.insert_unreserved (fun h' => ha ?_) (evictFor_written policy storage _ e)
      simp only [ContentService.evictFor, ContentService.evict_state,
        ContentService.dropAll_eq_dropSet, ContentService.dropSet, mem_restrict] at h'
      exact h'.2
    · exact hI.reserve ha e
  | timer a =>
    obtain ⟨e, hl, rfl⟩ := step_timer h
    have hI' := hI.evictFor policy storage e
    have ha : a ∉ (n.service.evictFor policy storage e).1.dataDir := by
      rw [← AList.lookup_eq_none, hI'.file a _ hl]; rfl
    exact hI'.insert_unreserved ha (evictFor_written policy storage _ e)
  | resume a =>
    obtain ⟨e, hl, rfl⟩ := step_resume h
    exact hI.reserve (by rw [← AList.lookup_eq_none, hI.file a _ hl]; rfl) e
  | source a ev =>
    obtain ⟨e, r, q, w, hl, rfl⟩ := step_source h
    exact hI.setPhase hl _ (Ingestion.written_onSource e r q w ev)
  | written a =>
    obtain ⟨e, ph, s', ph', hl, hw, rfl⟩ := step_written h
    obtain ⟨w, k, rfl, -, hw'⟩ := Ingestion.written_writeNext hw e
    exact hI.written hl hw'
  | callback a =>
    obtain ⟨e, err, r, q, w, hl, -, ⟨rfl, rfl, rfl, rfl⟩ | ⟨-, rfl⟩⟩ := step_callback h
    · exact hI.setPhase hl _ rfl
    · exact hI.dropSelf a
  | mimeDetected a =>
    obtain ⟨e, hl, rfl⟩ := step_mimeDetected h
    exact hI.commit hl
  | drop a =>
    obtain ⟨ha, rfl⟩ := step_drop h
    rw [ContentService.drop_eq_dropSet]
    exact hI.dropSet fun b hb => decide_eq_false fun h => ha (h ▸ hb)
  | cacheCleanup S =>
    rw [step_cacheCleanup h, ContentService.cacheCleanup_eq_dropSet]
    exact hI.dropSet fun a ha => by simp [hI.not_cached a ha]

/-! ## The accounting gap -/

/-- `contentSizeSum`, less the bytes of the data directory and the bytes the reserved calls have
still to write. -/
def gap (n : Node) : Int :=
  n.service.contentSizeSum - sizeSum n.service.dataDir - tableSum Ingestion.unwritten n.ingestions

/-- What an event takes out of the accounting: a failed call's reservation, less the bytes of
the file its callback drops. -/
def leak (n : Node) : Event → Int
  | .callback objectId =>
    match n.ingestions.lookup objectId with
    | some ⟨e, .piped err r _ w⟩ => if err = false ∧ w = r ∧ w = e then 0 else (e : Int) - w
    | _ => 0
  | _ => 0

variable (policy storage fileType) in
/-- What the events of a run leak, one after the other. -/
def leaks : Node → List Event → Int
  | _, [] => 0
  | n, ev :: evs =>
    match n.step policy storage fileType ev with
    | some n' => n.leak ev + leaks n' evs
    | none => 0

theorem gap_dropSet (n : Node) (p : ObjectId → Bool) :
    gap ⟨n.service.dropSet p, n.ingestions⟩ = gap n := by
  have := sizeSum_restrict_add p n.service.dataDir
  simp only [gap, ContentService.dropSet]
  omega

theorem gap_evictFor (n : Node) (e : Nat) :
    gap ⟨(n.service.evictFor policy storage e).1, n.ingestions⟩ = gap n := by
  obtain ⟨p, -, he⟩ := n.service.evictFor_eq_dropSet policy storage e
  rw [he, gap_dropSet]

theorem gap_insert_unreserved {s : ContentService} {d : Table Ingestion} {a : ObjectId}
    {t : Ingestion} (hu : tableAt Ingestion.unwritten d a = 0) (ht : t.written = none) :
    gap ⟨s, d.insert a t⟩ = gap ⟨s, d⟩ := by
  have := tableSum_insert Ingestion.unwritten d a t
  rw [hu, Ingestion.unwritten_of_written_none ht] at this
  simp only [gap]
  omega

theorem gap_reserve {n : Node} {a : ObjectId} (ha : a ∉ n.service.dataDir) {e : Nat}
    (hu : tableAt Ingestion.unwritten n.ingestions a = 0) :
    gap ⟨n.service.reserve a e, n.ingestions.insert a ⟨e, .streaming 0 [] 0⟩⟩ = gap n := by
  have h1 := tableSum_insert Ingestion.unwritten n.ingestions a ⟨e, .streaming 0 [] 0⟩
  have h2 := sizeSum_insert n.service.dataDir a 0
  rw [sizeOf_of_not_mem ha] at h2
  rw [hu, Ingestion.unwritten_streaming] at h1
  simp only [gap, ContentService.reserve]
  push_cast at h1 h2 ⊢
  omega

theorem gap_setPhase {n : Node} {a : ObjectId} {t : Ingestion}
    (hl : n.ingestions.lookup a = some t) (t' : Ingestion) (hu : t'.unwritten = t.unwritten) :
    gap ⟨n.service, n.ingestions.insert a t'⟩ = gap n := by
  have := tableSum_insert Ingestion.unwritten n.ingestions a t'
  rw [tableAt_of_lookup hl, hu] at this
  simp only [gap]
  omega

theorem gap_written {n : Node} (hI : Inv n) {a : ObjectId} {e : Nat} {ph ph' : Phase} {w k : Nat}
    (hl : n.ingestions.lookup a = some ⟨e, ph⟩) (hw : Ingestion.written ⟨e, ph⟩ = some w)
    (hw' : Ingestion.written ⟨e, ph'⟩ = some (w + k)) :
    gap ⟨n.service.onWritten a w k, n.ingestions.insert a ⟨e, ph'⟩⟩ = gap n := by
  have h1 := tableSum_insert Ingestion.unwritten n.ingestions a ⟨e, ph'⟩
  have h2 := sizeSum_insert n.service.dataDir a (w + k)
  rw [tableAt_of_lookup hl] at h1
  have hs : sizeOf n.service.dataDir a = w := by simp [sizeOf, hI.file a _ hl, hw]
  simp only [gap, ContentService.onWritten_dataDir, ContentService.onWritten_contentSizeSum,
    Ingestion.unwritten, hw, hw', hs, Option.getD_some] at h1 h2 ⊢
  push_cast at h1 h2 ⊢
  omega

/-- A call that drops its own object leaks its reservation less its file's bytes. -/
theorem gap_dropSelf {n : Node} (hI : Inv n) {a : ObjectId} {e : Nat} {err : Bool} {r : Nat}
    {q : List Nat} {w : Nat} (hl : n.ingestions.lookup a = some ⟨e, .piped err r q w⟩) :
    gap ⟨n.service.drop a, n.ingestions.erase a⟩ = gap n + (e - w) := by
  have hw : sizeOf n.service.dataDir a = w := by simp [sizeOf, hI.file a _ hl, Ingestion.written]
  have h1 := tableSum_erase Ingestion.unwritten n.ingestions a
  have h2 := sizeSum_erase n.service.dataDir a
  rw [tableAt_of_lookup hl, Ingestion.unwritten_piped] at h1
  simp only [gap, ContentService.drop_contentSizeSum, ContentService.drop_dataDir, hw] at h2 ⊢
  omega

theorem gap_commit {n : Node} {a : ObjectId} {e : Nat}
    (hl : n.ingestions.lookup a = some ⟨e, .detecting⟩) :
    gap ⟨n.service.commitContent fileType a e, n.ingestions.erase a⟩ = gap n := by
  have h1 := tableSum_erase Ingestion.unwritten n.ingestions a
  rw [tableAt_of_lookup hl, Ingestion.unwritten_detecting] at h1
  simp only [gap, ContentService.commitContent]
  omega

/-- Every event moves the gap by exactly what it leaks. -/
theorem gap_step {n n' : Node} (hI : Inv n) {ev : Event}
    (h : n.step policy storage fileType ev = some n') : gap n' = gap n + n.leak ev := by
  cases ev with
  | handleNewContent a e =>
    obtain ⟨ha, hi, rfl⟩ := step_handleNewContent h
    simp only [ContentService.handleNewContent, leak, add_zero]
    split_ifs
    · rw [gap_insert_unreserved (tableAt_of_not_mem hi) (evictFor_written policy storage _ e)]
      exact gap_evictFor n e
    · exact gap_reserve ha (tableAt_of_not_mem hi)
  | timer a =>
    obtain ⟨e, hl, rfl⟩ := step_timer h
    simp only [leak, add_zero]
    rw [gap_insert_unreserved (by rw [tableAt_of_lookup hl, Ingestion.unwritten_evicting])
      (evictFor_written policy storage _ e)]
    exact gap_evictFor n e
  | resume a =>
    obtain ⟨e, hl, rfl⟩ := step_resume h
    simp only [leak, add_zero]
    exact gap_reserve (by rw [← AList.lookup_eq_none, hI.file a _ hl]; rfl)
      (by rw [tableAt_of_lookup hl, Ingestion.unwritten_evicted])
  | source a ev =>
    obtain ⟨e, r, q, w, hl, rfl⟩ := step_source h
    simp only [leak, add_zero]
    exact gap_setPhase hl _ (by simp only [Ingestion.unwritten, Ingestion.written_onSource]; rfl)
  | written a =>
    obtain ⟨e, ph, s', ph', hl, hw, rfl⟩ := step_written h
    obtain ⟨w, k, rfl, hw, hw'⟩ := Ingestion.written_writeNext hw e
    simp only [leak, add_zero]
    exact gap_written hI hl hw hw'
  | callback a =>
    obtain ⟨e, err, r, q, w, hl, -, ⟨rfl, rfl, rfl, rfl⟩ | ⟨hok, rfl⟩⟩ := step_callback h
    · simp only [leak, hl, and_self, if_true, add_zero]
      exact gap_setPhase hl _ (by simp)
    · simp only [leak, hl, if_neg hok]
      exact gap_dropSelf hI hl
  | mimeDetected a =>
    obtain ⟨e, hl, rfl⟩ := step_mimeDetected h
    simp only [leak, add_zero]
    exact gap_commit hl
  | drop a =>
    obtain ⟨-, rfl⟩ := step_drop h
    simp only [leak, add_zero]
    rw [ContentService.drop_eq_dropSet, gap_dropSet]
  | cacheCleanup S =>
    rw [step_cacheCleanup h, ContentService.cacheCleanup_eq_dropSet, gap_dropSet]
    simp [leak]

/-- The invariant and the gap along a run. -/
theorem gap_run {n n' : Node} (hI : Inv n) {evs : List Event}
    (h : n.run policy storage fileType evs = some n') :
    Inv n' ∧ gap n' = gap n + leaks policy storage fileType n evs := by
  induction evs generalizing n with
  | nil => cases h; simp [leaks, hI]
  | cons ev evs ih =>
    obtain ⟨m, hs, hr⟩ := run_cons.1 h
    obtain ⟨hI', hg⟩ := ih (hI.step hs) hr
    refine ⟨hI', ?_⟩
    rw [hg, gap_step hI hs]
    simp only [leaks, hs]
    ring

/-! ## From a reconciled service -/

theorem Inv.started (supportedObjects : SupportedObjects) (s : ContentService) :
    Inv (started fileType supportedObjects s) := by
  refine ⟨fun a t h => by simp [Node.started, AList.lookup_empty] at h,
    fun a h => absurd h (AList.not_mem_empty a), fun a ha => ?_⟩
  simp only [Node.started, ContentService.startupInit_cached, mem_restrict] at ha
  simp only [Node.started, ContentService.startupInit_dataDir, mem_restrict]
  exact ⟨ha.1, ContentService.keeps_mem supportedObjects ha.1⟩

theorem Inv.reachable {admits : Node → Event → Prop} {n₀ n : Node} (h₀ : Inv n₀)
    (h : ReachableBy policy storage fileType admits n₀ n) : Inv n := by
  induction h with
  | refl => exact h₀
  | step _ _ _ hs ih => exact ih.step hs

/-- Every node reached from a reconciled service keeps the invariant. -/
theorem inv_of_reachable (supportedObjects : SupportedObjects) (s : ContentService) {n : Node}
    (h : Reachable policy storage fileType (started fileType supportedObjects s) n) : Inv n :=
  (Inv.started supportedObjects s).reachable h

theorem inv_of_reachable_in_flight :
    ∃ n, Reachable ContentService.firstCached 10 (fun _ => none)
        (started (fun _ => none) ∅ ⟨∅, ⟨∅, ∅, []⟩, 0⟩) n ∧
      n.ingestions.lookup "a" = some ⟨5, .streaming 1 [1] 0⟩ ∧
      "b" ∈ n.service.stateCache.cached ∧ Inv n :=
  have hn : Reachable ContentService.firstCached 10 (fun _ => none)
      (started (fun _ => none) ∅ ⟨∅, ⟨∅, ∅, []⟩, 0⟩) _ :=
    reachable_of_run [.handleNewContent "b" 2, .source "b" (.data 2), .written "b",
      .source "b" .end, .callback "b", .mimeDetected "b", .handleNewContent "a" 5,
      .source "a" (.data 1)] rfl
  ⟨_, hn, rfl, by decide, @inv_of_reachable ContentService.firstCached 10 (fun _ => none) ∅ _ _ hn⟩

theorem gap_started (supportedObjects : SupportedObjects) (s : ContentService) :
    gap (started fileType supportedObjects s) = s.contentSizeSum := by
  simp [gap, Node.started, ContentService.startupInit_contentSizeSum, tableSum]

/-- The counter after any run from a reconciled service: the directory's bytes, the bytes the
reserved calls have still to write, and what the failed calls leaked. -/
theorem contentSizeSum_run (supportedObjects : SupportedObjects) (s : ContentService)
    {evs : List Event} {n : Node}
    (h : (started fileType supportedObjects s).run policy storage fileType evs = some n) :
    n.service.contentSizeSum = s.contentSizeSum + sizeSum n.service.dataDir +
      tableSum Ingestion.unwritten n.ingestions +
      leaks policy storage fileType (started fileType supportedObjects s) evs := by
  have := (gap_run (Inv.started supportedObjects s) h).2
  rw [gap_started] at this
  simp only [gap] at this
  omega

theorem contentSizeSum_run_failed_call :
    ∃ n, (started (fun _ => none) ∅ ⟨∅, ⟨∅, ∅, []⟩, 0⟩).run ContentService.firstCached 10
      (fun _ => none) [.handleNewContent "a" 5, .source "a" .end, .callback "a"] = some n ∧
    n.service.contentSizeSum = 0 + sizeSum n.service.dataDir +
      tableSum Ingestion.unwritten n.ingestions +
      leaks ContentService.firstCached 10 (fun _ => none) (started (fun _ => none) ∅ ⟨∅, ⟨∅, ∅, []⟩, 0⟩)
        [.handleNewContent "a" 5, .source "a" .end, .callback "a"] :=
  ⟨_, rfl, @contentSizeSum_run ContentService.firstCached 10 (fun _ => none) ∅ ⟨∅, ⟨∅, ∅, []⟩, 0⟩
    [.handleNewContent "a" 5, .source "a" .end, .callback "a"] _ rfl⟩

/-- A call whose source ends early, run from an empty reconciled service: once its callback has
run, no call is in flight and no file is left, yet the counter holds its 5 reserved bytes. -/
theorem failed_call_leaks_reservation :
    ((started (fun _ => none) ∅ ⟨∅, ⟨∅, ∅, []⟩, 0⟩).run ContentService.firstCached 10
      (fun _ => none) [.handleNewContent "a" 5, .source "a" .end, .callback "a"]).map
        (fun n => (n.ingestions.keys, n.service.dataDir.keys, n.service.contentSizeSum)) =
      some ([], [], 5) := by
  decide

end Node

end Joystream
