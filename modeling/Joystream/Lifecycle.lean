import Joystream.Interleaving

/-!
# The lifecycle of one object

The spec gives every object a lifecycle. It enters scope when it is found on disk at startup or
when an ingestion request begins; it is reserved while its write is in flight; it becomes
committed only once exactly the expected bytes are written and a content type is detected; it
is removed (file, bytes and index entry) when its ingestion fails, or when cleanup, eviction or
a caller drops it. Commit and removal are the only ways a reservation ends, and a committed
object stays as it is until it is removed.

`Lifecycle.Next` is that machine, for one object, in the spec's words, with one state and one
move the spec's lifecycle has no place for: `found`, a file `startupInit` keeps that the index
does not track, and `removeFound`, its removal by a caller's `drop`. `Node.status` reads an
object's place in it off a node: from the phase of its call when one is in flight, else from
its file, its index entry and its MIME type.

**Theorem (`node_refines_lifecycle`).** Reconciliation leaves every object out of scope,
committed with a MIME type, or found; and every event of every node reached from a reconciled
service moves each object by one move of the lifecycle, or leaves its status as it was.

**Theorem (`tracked_mimeType_of_reachable`).** So in every node reached from a reconciled
service every object the index tracks has a non-empty MIME type, as the committed state of the
lifecycle always has.

**Theorem (`restart_keeps_committed`).** Stop the node at any point of any run, losing the
calls in flight, and start it again against any snapshot, keeping the disk and the index: an
object is committed after the restart exactly when it was committed at the stop and the new
snapshot supports it at its size, and then with the same size and MIME type. A call cut short
commits nothing, and a commit survives the restart as it was.

The proof is one equation per kind of stretch for the status of the objects it does not touch
(`status_service`, `status_insert_ne`, `status_erase_ne`, and the frame lemmas of the service),
one for removal (`status_dropSet_move`), and one move per event for its own object.
-/

namespace Joystream

namespace Lifecycle

open Relation

/-- The place of one object in the spec's lifecycle. -/
inductive Status where
  /-- Out of scope: no file, no index entry, no ingestion. -/
  | absent
  /-- An ingestion request has begun and waits for eviction; nothing is reserved yet. -/
  | waiting (expectedSize : Nat)
  /-- The space is reserved and the write is in flight. -/
  | reserved (expectedSize : Nat)
  /-- In the cache index, with a file of `size` bytes and its content type. -/
  | committed (size : Nat) (mimeType : String)
  /-- Found on disk at startup and kept, though the index does not hold it. -/
  | found (size : Nat)
  deriving DecidableEq, Repr

/-- The moves of the lifecycle. -/
inductive Next : Status → Status → Prop
  /-- An ingestion request begins and has to wait for eviction. -/
  | begin (e : Nat) : Next .absent (.waiting e)
  /-- An ingestion request begins with room enough, and reserves at once. -/
  | beginReserved (e : Nat) : Next .absent (.reserved e)
  /-- The eviction is over: the request reserves. -/
  | reserve (e : Nat) : Next (.waiting e) (.reserved e)
  /-- Exactly the expected bytes are written and a content type is detected. -/
  | commit (e : Nat) {m : String} (hm : m ≠ "") : Next (.reserved e) (.committed e m)
  /-- The ingestion fails and its partial object is removed. -/
  | fail (e : Nat) : Next (.reserved e) .absent
  /-- Cleanup, eviction or a caller removes a committed object. -/
  | removeCommitted (size : Nat) (m : String) : Next (.committed size m) .absent
  /-- A caller removes a found file. -/
  | removeFound (size : Nat) : Next (.found size) .absent

/-- Where reconciliation may leave an object. -/
inductive Init : Status → Prop
  | absent : Init .absent
  | committed (size : Nat) {m : String} (hm : m ≠ "") : Init (.committed size m)
  | found (size : Nat) : Init (.found size)

/-- A committed object has a content type. -/
def Typed : Status → Prop
  | .committed _ m => m ≠ ""
  | _ => True

theorem Init.typed {s : Status} (h : Init s) : Typed s := by
  cases h <;> trivial

theorem Next.typed {s t : Status} (h : Next s t) : Typed t := by
  cases h <;> trivial

theorem Typed.reflGen {s t : Status} (hs : Typed s) (h : ReflGen Next s t) : Typed t := by
  cases h with
  | refl => exact hs
  | single h => exact h.typed

/-- A committed object's only move is its removal. -/
theorem Next.of_committed {size : Nat} {m : String} {t : Status} (h : Next (.committed size m) t) :
    t = .absent := by
  cases h; rfl

end Lifecycle

open Lifecycle Relation

/-- The status of a call in flight: waiting before its reservation, reserved from then on. -/
def Ingestion.status (t : Ingestion) : Status :=
  match t.phase with
  | .evicting | .evicted => .waiting t.expectedSize
  | _ => .reserved t.expectedSize

namespace ContentService

/-- The status of an object no call is writing: from its file and its index entry. -/
def status (s : ContentService) (a : ObjectId) : Status :=
  match s.dataDir.lookup a with
  | none => .absent
  | some size =>
    if a ∈ s.stateCache.cached then
      .committed size ((s.stateCache.getContentMimeType a).getD "")
    else .found size

theorem status_of_not_mem {s : ContentService} {a : ObjectId} (h : a ∉ s.dataDir) :
    s.status a = .absent := by
  simp [status, AList.lookup_eq_none.2 h]

theorem status_congr {s s' : ContentService} {a : ObjectId}
    (hd : s'.dataDir.lookup a = s.dataDir.lookup a)
    (hc : a ∈ s'.stateCache.cached ↔ a ∈ s.stateCache.cached)
    (hm : s'.stateCache.mimeTypes.lookup a = s.stateCache.mimeTypes.lookup a) :
    s'.status a = s.status a := by
  simp only [status, StateCache.getContentMimeType, hd, hc, hm]

theorem status_dropSet (s : ContentService) (p : ObjectId → Bool) (a : ObjectId) :
    (s.dropSet p).status a = if p a then .absent else s.status a := by
  cases hp : p a <;> simp [status, dropSet, StateCache.getContentMimeType, hp]

/-- An object no call is writing can always be removed. -/
theorem status_removal (s : ContentService) (a : ObjectId) : ReflGen Next (s.status a) .absent := by
  unfold status
  split
  · exact .refl
  · split_ifs
    · exact .single (.removeCommitted _ _)
    · exact .single (.removeFound _)

variable {s : ContentService} {a b : ObjectId}

theorem status_reserve_ne (hba : b ≠ a) (e : Nat) : (s.reserve a e).status b = s.status b :=
  status_congr (AList.lookup_insert_ne hba) Iff.rfl rfl

theorem status_onWritten_ne (hba : b ≠ a) (w k : Nat) : (s.onWritten a w k).status b = s.status b :=
  status_congr (AList.lookup_insert_ne hba) Iff.rfl rfl

theorem status_drop_ne (hba : b ≠ a) : (s.drop a).status b = s.status b :=
  status_congr (by simp [AList.lookup_erase_ne hba]) (by simp [hba])
    (by simp [AList.lookup_erase_ne hba])

theorem status_commitContent_ne (fileType : ObjectId → Option String) (hba : b ≠ a) (e : Nat) :
    (s.commitContent fileType a e).status b = s.status b :=
  status_congr rfl (by simp [commitContent, hba])
    (by simp [commitContent, StateCache.setContentMimeType, StateCache.newContent,
      StateCache.dropPendingDownload, AList.lookup_insert_ne hba])

theorem status_eq_committed {size : Nat} {m : String} :
    s.status a = .committed size m ↔ s.dataDir.lookup a = some size ∧
      a ∈ s.stateCache.cached ∧ (s.stateCache.getContentMimeType a).getD "" = m := by
  unfold status
  split
  · simp_all
  · split_ifs <;> simp_all

/-- After `startupInit`, an object whose status was typed is committed exactly when it was
committed and the snapshot supports it at its size: reconciliation keeps a commit's size and MIME
type, and commits nothing new. -/
theorem status_startupInit_committed (fileType : ObjectId → Option String)
    (supportedObjects : SupportedObjects) (s : ContentService) (hT : Typed (s.status a))
    (size : Nat) (m : String) :
    (startupInit fileType supportedObjects s).status a = .committed size m ↔
      s.status a = .committed size m ∧ supportedObjects.lookup a = some size := by
  rw [status_eq_committed, status_eq_committed, startupInit_dataDir, lookup_restrict,
    startupInit_cached, mem_restrict]
  by_cases hk : keeps supportedObjects s.dataDir a
  · obtain ⟨sz, hsz⟩ := Option.isSome_iff_exists.1 (AList.lookup_isSome.2 (keeps_mem _ hk))
    have hS : supportedObjects.lookup a = some sz := by
      simp only [keeps, decide_eq_true_eq, sizeOf, hsz, Option.getD_some] at hk
      exact hk.2
    have hmime : a ∈ s.stateCache.cached →
        ((startupInit fileType supportedObjects s).stateCache.getContentMimeType a).getD "" =
          (s.stateCache.getContentMimeType a).getD "" := fun hc => by
      simp only [status, hsz, if_pos hc, Typed, StateCache.getContentMimeType] at hT ⊢
      cases hm₀ : s.stateCache.mimeTypes.lookup a with
      | none => simp [hm₀] at hT
      | some m₀ =>
        rw [startupInit_mimeType_of_typed fileType supportedObjects s hk hm₀
          (by simpa [hm₀] using hT)]
    simp only [hk, ↓reduceIte, hsz, hS, true_and, Option.some.injEq]
    constructor
    · rintro ⟨rfl, hc, hm⟩
      exact ⟨⟨rfl, hc, hmime hc ▸ hm⟩, rfl⟩
    · rintro ⟨⟨rfl, hc, hm⟩, -⟩
      exact ⟨rfl, hc, (hmime hc).trans hm⟩
  · simp only [if_neg hk, reduceCtorEq, false_and, false_iff, not_and]
    intro hd hS
    exact hk (by simp [keeps, hd.1, hS, sizeOf, mem_of_lookup_eq_some hd.1])

end ContentService

namespace Node

variable {policy : EvictionPolicy} {storage : Nat} {fileType : ObjectId → Option String}

/-- The status of `a` in `n`: that of its call when one is in flight, else that of its file. -/
def status (n : Node) (a : ObjectId) : Status :=
  match n.ingestions.lookup a with
  | some t => t.status
  | none => n.service.status a

/-! ## The objects a stretch does not touch -/

variable {s s' : ContentService} {d : Table Ingestion} {a b : ObjectId}

theorem status_of_lookup (t : Ingestion) (h : d.lookup b = some t) :
    status ⟨s, d⟩ b = t.status := by
  simp [status, h]

theorem status_of_not_mem (h : b ∉ d) : status ⟨s, d⟩ b = s.status b := by
  simp [status, AList.lookup_eq_none.2 h]

/-- A change of the service that leaves alone every object no call is writing. -/
theorem status_service (h : b ∉ d → s'.status b = s.status b) :
    status ⟨s', d⟩ b = status ⟨s, d⟩ b := by
  cases hl : d.lookup b with
  | none =>
    have hb := AList.lookup_eq_none.1 hl
    rw [status_of_not_mem hb, status_of_not_mem hb, h hb]
  | some t => rw [status_of_lookup t hl, status_of_lookup t hl]

theorem status_insert_ne (hba : b ≠ a) (t : Ingestion) :
    status ⟨s, d.insert a t⟩ b = status ⟨s, d⟩ b := by
  simp [status, AList.lookup_insert_ne hba]

theorem status_erase_ne (hba : b ≠ a) : status ⟨s, d.erase a⟩ b = status ⟨s, d⟩ b := by
  simp [status, AList.lookup_erase_ne hba]

/-- Removing objects: each of them that no call is writing is removed, the others stay. -/
theorem status_dropSet_move (p : ObjectId → Bool) (b : ObjectId) :
    ReflGen Next (status ⟨s, d⟩ b) (status ⟨s.dropSet p, d⟩ b) := by
  by_cases hb : b ∈ d
  · rw [status_service fun h => absurd hb h]
  · rw [status_of_not_mem hb, status_of_not_mem hb, ContentService.status_dropSet]
    split_ifs
    · exact s.status_removal b
    · exact .refl

theorem status_evictFor_move (n : Node) (e : Nat) (b : ObjectId) :
    ReflGen Next (n.status b) (status ⟨(n.service.evictFor policy storage e).1, n.ingestions⟩ b) := by
  obtain ⟨p, -, he⟩ := n.service.evictFor_eq_dropSet policy storage e
  rw [he]
  exact status_dropSet_move p b

/-! ## The object of a call -/

variable (policy storage) in
theorem status_handleNewContent (s : ContentService) (a : ObjectId) (e : Nat) :
    Next .absent (Ingestion.status ⟨e, (s.handleNewContent policy storage a e).2⟩) := by
  simp only [ContentService.handleNewContent, ContentService.evictFor]
  split_ifs
  · exact .begin e
  · exact .begin e
  · exact .beginReserved e

variable (policy storage) in
theorem status_evictFor (s : ContentService) (e : Nat) :
    Ingestion.status ⟨e, (s.evictFor policy storage e).2⟩ = .waiting e := by
  simp only [ContentService.evictFor]
  split_ifs <;> rfl

theorem status_onSource (e r : Nat) (q : List Nat) (w : Nat) (ev : SourceEvent) :
    Ingestion.status ⟨e, ContentService.onSource e r q w ev⟩ = .reserved e := by
  cases ev with
  | data k => simp only [ContentService.onSource]; split_ifs <;> rfl
  | _ => rfl

theorem status_commit {n : Node} (hI : Inv n) {a : ObjectId} {e : Nat}
    (hl : n.ingestions.lookup a = some ⟨e, .detecting⟩) :
    status ⟨n.service.commitContent fileType a e, n.ingestions.erase a⟩ a =
      .committed e (ContentService.detectMimeType fileType a) := by
  have hf : n.service.dataDir.lookup a = some e := hI.file a _ hl
  simp [status, AList.lookup_erase, ContentService.status, ContentService.commitContent, hf,
    StateCache.getContentMimeType, StateCache.setContentMimeType, AList.lookup_insert]

/-! ## Every event -/

/-- Every event of a node with the invariant moves each object by one move of the lifecycle, or
leaves its status as it was. -/
theorem status_step {n n' : Node} (hI : Inv n) {ev : Event}
    (h : n.step policy storage fileType ev = some n') (b : ObjectId) :
    ReflGen Next (n.status b) (n'.status b) := by
  cases ev with
  | handleNewContent a e =>
    obtain ⟨ha, hi, rfl⟩ := step_handleNewContent h
    by_cases hba : b = a
    · subst hba
      rw [status_of_lookup _ (AList.lookup_insert _), status, AList.lookup_eq_none.2 hi,
        ContentService.status_of_not_mem ha]
      exact .single (status_handleNewContent policy storage _ b e)
    · rw [status_insert_ne hba]
      simp only [ContentService.handleNewContent]
      split_ifs
      · exact status_evictFor_move n e b
      · rw [status_service fun _ => ContentService.status_reserve_ne hba e]
  | timer a =>
    obtain ⟨e, hl, rfl⟩ := step_timer h
    by_cases hba : b = a
    · subst hba
      rw [status_of_lookup _ (AList.lookup_insert _), status_evictFor, status, hl]
      exact .refl
    · rw [status_insert_ne hba]
      exact status_evictFor_move n e b
  | resume a =>
    obtain ⟨e, hl, rfl⟩ := step_resume h
    by_cases hba : b = a
    · subst hba
      rw [status_of_lookup _ (AList.lookup_insert _), status, hl]
      exact .single (.reserve e)
    · rw [status_insert_ne hba, status_service fun _ => ContentService.status_reserve_ne hba e]
  | source a ev =>
    obtain ⟨e, r, q, w, hl, rfl⟩ := step_source h
    by_cases hba : b = a
    · subst hba
      rw [status_of_lookup _ (AList.lookup_insert _), status_onSource, status, hl]
      exact .refl
    · rw [status_insert_ne hba]
  | written a =>
    obtain ⟨e, ph, s', ph', hl, hw, rfl⟩ := step_written h
    obtain ⟨w, k, rfl, ⟨r, q, rfl, rfl⟩ | ⟨err, r, q, rfl, rfl⟩⟩ :=
      ContentService.writeNext_eq_some hw <;>
    · by_cases hba : b = a
      · subst hba
        rw [status_of_lookup _ (AList.lookup_insert _), status, hl]
        exact .refl
      · rw [status_insert_ne hba, status_service fun _ => ContentService.status_onWritten_ne hba w k]
  | callback a =>
    obtain ⟨e, err, r, q, w, hl, -, ⟨rfl, rfl, rfl, rfl⟩ | ⟨-, rfl⟩⟩ := step_callback h
    · by_cases hba : b = a
      · subst hba
        rw [status_of_lookup _ (AList.lookup_insert _), status, hl]
        exact .refl
      · rw [status_insert_ne hba]
    · by_cases hba : b = a
      · subst hba
        have hi : b ∉ n.ingestions.erase b := by simp
        have hd : b ∉ (n.service.drop b).dataDir := by simp
        rw [status_of_not_mem hi, ContentService.status_of_not_mem hd, status, hl]
        exact .single (.fail e)
      · rw [status_erase_ne hba, status_service fun _ => ContentService.status_drop_ne hba]
  | mimeDetected a =>
    obtain ⟨e, hl, rfl⟩ := step_mimeDetected h
    by_cases hba : b = a
    · subst hba
      rw [status_commit hI hl, status, hl]
      exact .single (.commit e (ContentService.detectMimeType_ne_empty fileType b))
    · rw [status_erase_ne hba,
        status_service fun _ => ContentService.status_commitContent_ne fileType hba e]
  | drop a =>
    obtain ⟨ha, rfl⟩ := step_drop h
    rw [ContentService.drop_eq_dropSet]
    exact status_dropSet_move _ b
  | cacheCleanup S =>
    rw [step_cacheCleanup h, ContentService.cacheCleanup_eq_dropSet]
    exact status_dropSet_move _ b

/-! ## From a reconciled service -/

theorem status_started (supportedObjects : SupportedObjects) (s : ContentService) (a : ObjectId) :
    Init ((started fileType supportedObjects s).status a) := by
  rw [Node.started, status_of_not_mem (AList.not_mem_empty a), ContentService.status]
  split
  · exact .absent
  · rename_i size hsize
    split_ifs
    · obtain ⟨m, hm, hne⟩ := ContentService.startupInit_mimeType fileType supportedObjects s a
        (mem_of_lookup_eq_some hsize)
      rw [hm]
      exact .committed size hne
    · exact .found size

/-- Reconciliation leaves every object out of scope, committed with a MIME type, or found; every
event of every node reached from there moves each object along the lifecycle, or not at all. -/
theorem node_refines_lifecycle (supportedObjects : SupportedObjects) (s : ContentService) :
    (∀ a, Init ((started fileType supportedObjects s).status a)) ∧
    ∀ (n n' : Node) (ev : Event),
      Reachable policy storage fileType (started fileType supportedObjects s) n →
      n.step policy storage fileType ev = some n' → ∀ a, ReflGen Next (n.status a) (n'.status a) :=
  ⟨status_started supportedObjects s,
    fun _ _ _ hr hs => status_step ((Inv.started supportedObjects s).reachable hr) hs⟩

theorem node_refines_lifecycle_commit :
    ∃ n n', Reachable ContentService.firstCached 10 (fun _ => some "image/png")
        (started (fun _ => some "image/png") ∅ ⟨∅, ⟨∅, ∅, []⟩, 0⟩) n ∧
      n.step ContentService.firstCached 10 (fun _ => some "image/png") (.mimeDetected "b") =
        some n' ∧
      n.status "b" = .reserved 2 ∧ n'.status "b" = .committed 2 "image/png" ∧
      ∀ a, ReflGen Next (n.status a) (n'.status a) :=
  have hn : Reachable ContentService.firstCached 10 (fun _ => some "image/png")
      (started (fun _ => some "image/png") ∅ ⟨∅, ⟨∅, ∅, []⟩, 0⟩) _ :=
    reachable_of_run [.handleNewContent "b" 2, .source "b" (.data 2), .written "b",
      .source "b" .end, .callback "b"] rfl
  ⟨_, _, hn, rfl, by decide, by decide,
    (@node_refines_lifecycle ContentService.firstCached 10 (fun _ => some "image/png") ∅
      ⟨∅, ⟨∅, ∅, []⟩, 0⟩).2 _ _ (.mimeDetected "b") hn rfl⟩

theorem typed_of_reachable (supportedObjects : SupportedObjects) (s : ContentService) {n : Node}
    (h : Reachable policy storage fileType (started fileType supportedObjects s) n) (a : ObjectId) :
    Typed (n.status a) := by
  induction h with
  | refl => exact (status_started supportedObjects s a).typed
  | step _ hr _ hs ih =>
    exact ih.reflGen (status_step ((Inv.started supportedObjects s).reachable hr) hs a)

/-- Every object the index tracks, in every node reached from a reconciled service, has a
non-empty MIME type. -/
theorem tracked_mimeType_of_reachable (supportedObjects : SupportedObjects) (s : ContentService)
    {n : Node} (h : Reachable policy storage fileType (started fileType supportedObjects s) n) :
    ∀ a ∈ n.service.stateCache.cached,
      ∃ m, n.service.stateCache.getContentMimeType a = some m ∧ m ≠ "" := by
  intro a ha
  have hI := (Inv.started supportedObjects s).reachable h
  have ht := typed_of_reachable supportedObjects s h a
  obtain ⟨size, hsize⟩ := Option.isSome_iff_exists.1 (AList.lookup_isSome.2 (hI.cached_file a ha))
  rw [status_of_not_mem fun hi => hI.not_cached a hi ha] at ht
  simp only [ContentService.status, hsize, if_pos ha] at ht
  cases hm : n.service.stateCache.getContentMimeType a with
  | none => simp [hm, Typed] at ht
  | some m => exact ⟨m, rfl, by simpa [hm, Typed] using ht⟩

theorem tracked_mimeType_of_reachable_after_cleanup :
    ∃ n, Reachable ContentService.firstCached 10 (fun _ => some "image/png")
        (started (fun _ => some "image/png") ∅ ⟨∅, ⟨∅, ∅, []⟩, 0⟩) n ∧
      n.service.stateCache.cached.keys = ["b"] ∧ n.service.dataDir.keys = ["b"] ∧
      ∀ a ∈ n.service.stateCache.cached,
        ∃ m, n.service.stateCache.getContentMimeType a = some m ∧ m ≠ "" :=
  have hn : Reachable ContentService.firstCached 10 (fun _ => some "image/png")
      (started (fun _ => some "image/png") ∅ ⟨∅, ⟨∅, ∅, []⟩, 0⟩) _ :=
    reachable_of_run [.handleNewContent "b" 2, .source "b" (.data 2), .written "b",
      .source "b" .end, .callback "b", .mimeDetected "b", .handleNewContent "c" 1,
      .source "c" (.data 1), .written "c", .source "c" .end, .callback "c", .mimeDetected "c",
      .cacheCleanup (AList.singleton "b" 2)] rfl
  ⟨_, hn, rfl, rfl, @tracked_mimeType_of_reachable ContentService.firstCached 10
    (fun _ => some "image/png") ∅ _ _ hn⟩

/-! ## A stop and a start -/

variable (fileType) in
/-- A stop of the node and a start against the snapshot `supportedObjects`: the calls in flight
are lost, the data directory and the cache index stay as they were, and the new
`ContentService` counts from `contentSizeSum = 0` before `startupInit`. -/
def restart (supportedObjects : SupportedObjects) (n : Node) : Node :=
  started fileType supportedObjects { n.service with contentSizeSum := 0 }

/-- A stop at any node reached from a reconciled service, and a start against any snapshot: an
object is committed after the restart exactly when it was committed at the stop and the snapshot
supports it at its size, and then with the same size and MIME type. -/
theorem restart_keeps_committed (supportedObjects : SupportedObjects) (s : ContentService)
    {n : Node} (h : Reachable policy storage fileType (started fileType supportedObjects s) n)
    (S : SupportedObjects) (a : ObjectId) (size : Nat) (m : String) :
    (n.restart fileType S).status a = .committed size m ↔
      n.status a = .committed size m ∧ S.lookup a = some size := by
  rw [restart, Node.started, status_of_not_mem (AList.not_mem_empty a)]
  cases ht : n.ingestions.lookup a with
  | none =>
    have hT := typed_of_reachable supportedObjects s h a
    simp only [Node.status, ht] at hT ⊢
    exact ContentService.status_startupInit_committed fileType S { n.service with contentSizeSum := 0 }
      hT size m
  | some t =>
    have hnc := ((Inv.started supportedObjects s).reachable h).not_cached a
      (mem_of_lookup_eq_some ht)
    refine iff_of_false (fun hc => hnc ?_) fun hc => ?_
    · have := (ContentService.status_eq_committed.1 hc).2.1
      rw [ContentService.startupInit_cached, mem_restrict] at this
      exact this.2
    · simp only [Node.status, ht, Ingestion.status] at hc
      split at hc <;> cases hc.1

theorem restart_keeps_committed_after_commit :
    ∃ n, Reachable ContentService.firstCached 10 (fun _ => some "image/png")
        (started (fun _ => some "image/png") ∅ ⟨∅, ⟨∅, ∅, []⟩, 0⟩) n ∧
      n.status "b" = .committed 2 "image/png" ∧
      ((n.restart (fun _ => some "image/png") (AList.singleton "b" 2)).status "b" =
          .committed 2 "image/png" ↔
        n.status "b" = .committed 2 "image/png" ∧
          (AList.singleton "b" 2 : SupportedObjects).lookup "b" = some 2) :=
  have hn : Reachable ContentService.firstCached 10 (fun _ => some "image/png")
      (started (fun _ => some "image/png") ∅ ⟨∅, ⟨∅, ∅, []⟩, 0⟩) _ :=
    reachable_of_run [.handleNewContent "b" 2, .source "b" (.data 2), .written "b",
      .source "b" .end, .callback "b", .mimeDetected "b"] rfl
  ⟨_, hn, rfl, @restart_keeps_committed ContentService.firstCached 10 (fun _ => some "image/png") ∅
    ⟨∅, ⟨∅, ∅, []⟩, 0⟩ _ hn (AList.singleton "b" 2) "b" 2 "image/png"⟩

end Node

end Joystream
