import Joystream.Interleaving

/-!
# Which files the index tracks

Eviction and `cacheCleanup` free only the files of objects the cache index tracks. A file the
index does not track is freed only by a caller's `drop`.

`startupInit` keeps every supported file of the expected size, and for one the index does not
track it sets a MIME type but never calls `newContent`. Such a file (`startupOrphans`) stays on
disk, counted in `contentSizeSum`, and out of reach of eviction and cleanup.

**Theorem (`startup_keeps_untracked_file`).** Reconciling a directory whose supported file the
index does not track leaves that file on disk and counted, with nothing in flight and nothing
tracked.

**Theorem (`untracked_files_from_startup`).** In every node reached from a reconciled service,
every file is tracked by the index, belongs to a call in flight, or is one of `startupOrphans`:
no event after reconciliation leaves a new untracked file behind.

**Theorem (`startup_orphan_persists`).** A file of `startupOrphans` keeps its bytes, and stays
untracked and out of every call, along every run that does not `drop` it.

**Theorem (`index_sizes_exact`).** The index records each object at the size `newContent` was
given. From a service whose index held each object whose file is still there at that file's
bytes, every node reached records every tracked object at the bytes of its file: a call commits
only once its file holds `expectedSize` bytes, and every other event writes no tracked file.
-/

namespace Joystream

namespace ContentService

variable (supportedObjects : SupportedObjects)

/-- The files `startupInit` keeps whose objects the index does not track. -/
def startupOrphans (s : ContentService) : List ObjectId :=
  s.dataDir.keys.filter fun x => keeps supportedObjects s.dataDir x && x ∉ s.stateCache.cached

theorem mem_startupOrphans {s : ContentService} {x : ObjectId} :
    x ∈ s.startupOrphans supportedObjects ↔
      keeps supportedObjects s.dataDir x ∧ x ∉ s.stateCache.cached := by
  simp only [startupOrphans, List.mem_filter, AList.mem_keys, Bool.and_eq_true,
    decide_eq_true_eq]
  exact ⟨fun h => h.2, fun h => ⟨keeps_mem _ h.1, h⟩⟩

end ContentService

namespace Node

variable {policy : EvictionPolicy} {storage : Nat} {fileType : ObjectId → Option String}

/-! ## Every file is accounted for -/

/-- Every file is tracked by the index, belongs to a call in flight, or is one of `orphans`. -/
def Tracked (orphans : List ObjectId) (n : Node) : Prop :=
  ∀ a ∈ n.service.dataDir, a ∈ n.service.stateCache.cached ∨ a ∈ n.ingestions ∨ a ∈ orphans

variable {orphans : List ObjectId} {s : ContentService} {d : Table Ingestion}

theorem Tracked.dropSet (h : Tracked orphans ⟨s, d⟩) (p : ObjectId → Bool) :
    Tracked orphans ⟨s.dropSet p, d⟩ := by
  intro a ha
  simp only [ContentService.dropSet, mem_restrict] at ha ⊢
  rcases h a ha.2 with hc | hi
  · exact .inl ⟨ha.1, hc⟩
  · exact .inr hi

/-- A call's stretch that writes at most its own file and leaves the index alone. -/
theorem Tracked.call (h : Tracked orphans ⟨s, d⟩) {s' : ContentService} {a : ObjectId}
    (hd : ∀ b ∈ s'.dataDir, b ∈ s.dataDir ∨ b = a)
    (hc : s'.stateCache.cached = s.stateCache.cached) (t : Ingestion) :
    Tracked orphans ⟨s', d.insert a t⟩ := by
  intro b hb
  simp only [hc, AList.mem_insert]
  rcases hd b hb with hb | rfl
  · rcases h b hb with hc | hi | ho
    · exact .inl hc
    · exact .inr (.inl (.inr hi))
    · exact .inr (.inr ho)
  · exact .inr (.inl (.inl rfl))

theorem Tracked.dropSelf (h : Tracked orphans ⟨s, d⟩) (a : ObjectId) :
    Tracked orphans ⟨s.drop a, d.erase a⟩ := by
  intro b hb
  simp only [ContentService.drop_dataDir, AList.mem_erase] at hb
  simp only [ContentService.drop_stateCache, StateCache.dropById_cached, AList.mem_erase]
  rcases h b hb.2 with hc | hi | ho
  · exact .inl ⟨hb.1, hc⟩
  · exact .inr (.inl ⟨hb.1, hi⟩)
  · exact .inr (.inr ho)

theorem Tracked.commit (h : Tracked orphans ⟨s, d⟩) (a : ObjectId) (e : Nat) :
    Tracked orphans ⟨s.commitContent fileType a e, d.erase a⟩ := by
  intro b hb
  simp only [ContentService.commitContent, StateCache.setContentMimeType_cached,
    StateCache.newContent_cached, StateCache.dropPendingDownload_cached, AList.mem_insert,
    AList.mem_erase]
  by_cases hba : b = a
  · exact .inl (.inl hba)
  · rcases h b hb with hc | hi | ho
    · exact .inl (.inr hc)
    · exact .inr (.inl ⟨hba, hi⟩)
    · exact .inr (.inr ho)

theorem Tracked.evictFor (h : Tracked orphans ⟨s, d⟩) (e : Nat) :
    Tracked orphans ⟨(s.evictFor policy storage e).1, d⟩ := by
  obtain ⟨p, -, hp⟩ := s.evictFor_eq_dropSet policy storage e
  rw [hp]
  exact h.dropSet p

/-- Every event keeps every file accounted for. -/
theorem Tracked.step {n n' : Node} (h : Tracked orphans n) {ev : Event}
    (hs : n.step policy storage fileType ev = some n') : Tracked orphans n' := by
  have hres : ∀ {a : ObjectId} (e : Nat), ∀ b ∈ (n.service.reserve a e).dataDir,
      b ∈ n.service.dataDir ∨ b = a := fun e b hb => by
    simpa [ContentService.reserve, AList.mem_insert, or_comm] using hb
  cases ev with
  | handleNewContent a e =>
    obtain ⟨-, -, rfl⟩ := step_handleNewContent hs
    simp only [ContentService.handleNewContent]
    split_ifs
    · exact (h.evictFor e).call (fun b hb => .inl hb) rfl _
    · exact h.call (hres e) rfl _
  | timer a =>
    obtain ⟨e, -, rfl⟩ := step_timer hs
    exact (h.evictFor e).call (fun b hb => .inl hb) rfl _
  | resume a =>
    obtain ⟨e, -, rfl⟩ := step_resume hs
    exact h.call (hres e) rfl _
  | source a ev =>
    obtain ⟨e, r, q, w, -, rfl⟩ := step_source hs
    exact h.call (fun b hb => .inl hb) rfl _
  | written a =>
    obtain ⟨e, ph, s', ph', -, hw, rfl⟩ := step_written hs
    obtain ⟨w, k, rfl, -⟩ := Ingestion.written_writeNext hw e
    refine h.call (fun b hb => ?_) (by rfl) _
    simpa [AList.mem_insert, or_comm] using hb
  | callback a =>
    obtain ⟨e, err, r, q, w, -, -, ⟨rfl, rfl, rfl, rfl⟩ | ⟨-, rfl⟩⟩ := step_callback hs
    · exact h.call (fun b hb => .inl hb) rfl _
    · exact h.dropSelf a
  | mimeDetected a =>
    obtain ⟨e, -, rfl⟩ := step_mimeDetected hs
    exact h.commit a e
  | drop a =>
    obtain ⟨-, rfl⟩ := step_drop hs
    rw [ContentService.drop_eq_dropSet]
    exact h.dropSet _
  | cacheCleanup S =>
    rw [step_cacheCleanup hs, ContentService.cacheCleanup_eq_dropSet]
    exact h.dropSet _

theorem Tracked.started (supportedObjects : SupportedObjects) (s : ContentService) :
    Tracked (s.startupOrphans supportedObjects) (started fileType supportedObjects s) := by
  intro a ha
  simp only [Node.started, ContentService.startupInit_dataDir, mem_restrict] at ha
  simp only [Node.started, ContentService.startupInit_cached, mem_restrict,
    ContentService.mem_startupOrphans]
  by_cases hc : a ∈ s.stateCache.cached
  · exact .inl ⟨ha.1, hc⟩
  · exact .inr (.inr ⟨ha.1, hc⟩)

/-- Every file of a node reached from a reconciled service is tracked by the index, belongs to a
call in flight, or is one `startupInit` kept untracked. -/
theorem untracked_files_from_startup (supportedObjects : SupportedObjects) (s : ContentService)
    {n : Node} (h : Reachable policy storage fileType (started fileType supportedObjects s) n) :
    ∀ a ∈ n.service.dataDir, a ∈ n.service.stateCache.cached ∨ a ∈ n.ingestions ∨
      a ∈ s.startupOrphans supportedObjects := by
  induction h with
  | refl => exact Tracked.started supportedObjects s
  | step ev _ _ hs ih => exact Tracked.step ih hs

theorem untracked_files_from_startup_after_cleanup :
    ∃ n, Reachable ContentService.firstCached 10 (fun _ => none)
        (started (fun _ => none) (AList.singleton "a" 3) ⟨AList.singleton "a" 3, ⟨∅, ∅, []⟩, 0⟩) n ∧
      n.service.dataDir.keys = ["c", "a"] ∧ "c" ∈ n.ingestions ∧
      ∀ a ∈ n.service.dataDir, a ∈ n.service.stateCache.cached ∨ a ∈ n.ingestions ∨
        a ∈ ContentService.startupOrphans (AList.singleton "a" 3)
          ⟨AList.singleton "a" 3, ⟨∅, ∅, []⟩, 0⟩ :=
  have hn : Reachable ContentService.firstCached 10 (fun _ => none)
      (started (fun _ => none) (AList.singleton "a" 3) ⟨AList.singleton "a" 3, ⟨∅, ∅, []⟩, 0⟩) _ :=
    reachable_of_run [.handleNewContent "b" 2, .source "b" (.data 2), .written "b",
      .source "b" .end, .callback "b", .mimeDetected "b", .handleNewContent "c" 4,
      .cacheCleanup (AList.singleton "a" 3)] rfl
  ⟨_, hn, rfl, by decide, @untracked_files_from_startup ContentService.firstCached 10
    (fun _ => none) (AList.singleton "a" 3) _ _ hn⟩

/-- Reconciling a directory whose one supported file the index does not track: no call is in
flight, the file stays and is counted, and the index tracks nothing. -/
theorem startup_keeps_untracked_file :
    (started (fun _ => none) (AList.singleton "a" 3)
        ⟨AList.singleton "a" 3, ⟨∅, ∅, []⟩, 0⟩).ingestions.keys = [] ∧
    (ContentService.startupInit (fun _ => none) (AList.singleton "a" 3)
        ⟨AList.singleton "a" 3, ⟨∅, ∅, []⟩, 0⟩).dataDir.keys = ["a"] ∧
    (ContentService.startupInit (fun _ => none) (AList.singleton "a" 3)
        ⟨AList.singleton "a" 3, ⟨∅, ∅, []⟩, 0⟩).stateCache.cached.keys = [] ∧
    (ContentService.startupInit (fun _ => none) (AList.singleton "a" 3)
        ⟨AList.singleton "a" 3, ⟨∅, ∅, []⟩, 0⟩).contentSizeSum = 3 := by
  decide

/-! ## An untracked file stays -/

/-- The object `a` has a file of `size` bytes that no index entry and no call claims. -/
structure Orphan (a : ObjectId) (size : Nat) (n : Node) : Prop where
  file : n.service.dataDir.lookup a = some size
  not_cached : a ∉ n.service.stateCache.cached
  not_in_flight : a ∉ n.ingestions

variable {a : ObjectId} {size : Nat}

/-- What a step must leave alone for `a` to stay an orphan. -/
theorem Orphan.frame {n n' : Node} (h : Orphan a size n)
    (hd : n'.service.dataDir.lookup a = n.service.dataDir.lookup a)
    (hc : n'.service.stateCache.cached.lookup a = n.service.stateCache.cached.lookup a)
    (hi : n'.ingestions.lookup a = n.ingestions.lookup a) : Orphan a size n' := by
  refine ⟨hd.trans h.file, ?_, ?_⟩
  · rw [← AList.lookup_isSome, hc, AList.lookup_isSome]; exact h.not_cached
  · rw [← AList.lookup_isSome, hi, AList.lookup_isSome]; exact h.not_in_flight

theorem Orphan.dropSet (h : Orphan a size ⟨s, d⟩) {p : ObjectId → Bool}
    (hp : p a = false) : Orphan a size ⟨s.dropSet p, d⟩ :=
  h.frame (by simp [ContentService.dropSet, hp]) (by simp [ContentService.dropSet, hp]) rfl

theorem Orphan.evictFor (h : Orphan a size ⟨s, d⟩) (e : Nat) :
    Orphan a size ⟨(s.evictFor policy storage e).1, d⟩ := by
  obtain ⟨p, hp, he⟩ := s.evictFor_eq_dropSet policy storage e
  rw [he]
  exact h.dropSet (Bool.eq_false_iff.2 fun ha => h.not_cached (hp a ha))

/-- Every event but a `drop` of `a` leaves the orphan `a` as it is. -/
theorem Orphan.step {n n' : Node} (h : Orphan a size n) {ev : Event} (hev : ev ≠ .drop a)
    (hs : n.step policy storage fileType ev = some n') : Orphan a size n' := by
  have hne : ∀ {b}, b ∈ n.ingestions → a ≠ b := fun hb hab => h.not_in_flight (hab ▸ hb)
  have hins : ∀ {b} (t : Ingestion), a ≠ b → (n.ingestions.insert b t).lookup a = n.ingestions.lookup a :=
    fun t hab => AList.lookup_insert_ne hab
  have hres : ∀ {b} (e : Nat), a ≠ b → Orphan a size ⟨n.service.reserve b e, n.ingestions⟩ :=
    fun e hab => h.frame (AList.lookup_insert_ne hab) rfl rfl
  cases ev with
  | handleNewContent b e =>
    obtain ⟨hb, -, rfl⟩ := step_handleNewContent hs
    have hab : a ≠ b := fun hab => hb (hab ▸ mem_of_lookup_eq_some h.file)
    simp only [ContentService.handleNewContent]
    split_ifs
    · exact (h.evictFor e).frame rfl rfl (hins _ hab)
    · exact (hres e hab).frame rfl rfl (hins _ hab)
  | timer b =>
    obtain ⟨e, hl, rfl⟩ := step_timer hs
    exact (h.evictFor e).frame rfl rfl (hins _ (hne (mem_of_lookup_eq_some hl)))
  | resume b =>
    obtain ⟨e, hl, rfl⟩ := step_resume hs
    have hab := hne (mem_of_lookup_eq_some hl)
    exact (hres e hab).frame rfl rfl (hins _ hab)
  | source b ev =>
    obtain ⟨e, r, q, w, hl, rfl⟩ := step_source hs
    exact h.frame rfl rfl (hins _ (hne (mem_of_lookup_eq_some hl)))
  | written b =>
    obtain ⟨e, ph, s', ph', hl, hw, rfl⟩ := step_written hs
    obtain ⟨w, k, rfl, -⟩ := Ingestion.written_writeNext hw e
    have hab := hne (mem_of_lookup_eq_some hl)
    exact h.frame (AList.lookup_insert_ne hab) rfl (hins _ hab)
  | callback b =>
    obtain ⟨e, err, r, q, w, hl, -, ⟨rfl, rfl, rfl, rfl⟩ | ⟨-, rfl⟩⟩ := step_callback hs
    · exact h.frame rfl rfl (hins _ (hne (mem_of_lookup_eq_some hl)))
    · have hab := hne (mem_of_lookup_eq_some hl)
      rw [ContentService.drop_eq_dropSet]
      exact (h.dropSet (decide_eq_false hab)).frame rfl rfl (AList.lookup_erase_ne hab)
  | mimeDetected b =>
    obtain ⟨e, hl, rfl⟩ := step_mimeDetected hs
    have hab := hne (mem_of_lookup_eq_some hl)
    exact h.frame rfl (by simp [ContentService.commitContent, AList.lookup_insert_ne hab])
      (AList.lookup_erase_ne hab)
  | drop b =>
    obtain ⟨-, rfl⟩ := step_drop hs
    rw [ContentService.drop_eq_dropSet]
    exact h.dropSet (decide_eq_false fun hab => hev (hab ▸ rfl))
  | cacheCleanup S =>
    rw [step_cacheCleanup hs, ContentService.cacheCleanup_eq_dropSet]
    exact h.dropSet (by simp [h.not_cached])

theorem Orphan.started (supportedObjects : SupportedObjects) (s : ContentService)
    (ha : a ∈ s.startupOrphans supportedObjects) :
    Orphan a (sizeOf s.dataDir a) (started fileType supportedObjects s) := by
  rw [ContentService.mem_startupOrphans] at ha
  refine ⟨?_, ?_, AList.not_mem_empty a⟩
  · simp only [Node.started, ContentService.startupInit_dataDir, lookup_restrict, if_pos ha.1]
    obtain ⟨z, hz⟩ := Option.isSome_iff_exists.1
      (AList.lookup_isSome.2 (ContentService.keeps_mem supportedObjects ha.1))
    simp [sizeOf, hz]
  · simp only [Node.started, ContentService.startupInit_cached, mem_restrict]
    exact fun h => ha.2 h.2

/-- A file `startupInit` kept untracked keeps its bytes, its index absence and its freedom from
calls along every run with no `drop` of it: eviction and cleanup never free it. -/
theorem startup_orphan_persists (supportedObjects : SupportedObjects) (s : ContentService)
    (ha : a ∈ s.startupOrphans supportedObjects) {evs : List Event} {n : Node}
    (hevs : Event.drop a ∉ evs)
    (h : (started fileType supportedObjects s).run policy storage fileType evs = some n) :
    n.service.dataDir.lookup a = some (sizeOf s.dataDir a) ∧
      a ∉ n.service.stateCache.cached ∧ a ∉ n.ingestions := by
  suffices ∀ {m : Node} {evs : List Event}, Orphan a (sizeOf s.dataDir a) m → Event.drop a ∉ evs →
      m.run policy storage fileType evs = some n → Orphan a (sizeOf s.dataDir a) n from
    let ho := this (Orphan.started supportedObjects s ha) hevs h
    ⟨ho.file, ho.not_cached, ho.not_in_flight⟩
  intro m evs hm hevs h
  induction evs generalizing m with
  | nil => cases h; exact hm
  | cons ev evs ih =>
    obtain ⟨m', hs, hr⟩ := run_cons.1 h
    rw [List.mem_cons, not_or] at hevs
    exact ih (hm.step (Ne.symm hevs.1) hs) hevs.2 hr

theorem startup_orphan_persists_cleanup :
    "a" ∈ ContentService.startupOrphans (AList.singleton "a" 3)
        ⟨AList.singleton "a" 3, ⟨∅, ∅, []⟩, 0⟩ ∧
    Event.drop "a" ∉ [Event.cacheCleanup ∅] ∧
    ∃ n, (started (fun _ => none) (AList.singleton "a" 3) ⟨AList.singleton "a" 3, ⟨∅, ∅, []⟩, 0⟩).run
        ContentService.firstCached 10 (fun _ => none) [.cacheCleanup ∅] = some n ∧
      n.service.dataDir.lookup "a" = some (sizeOf (AList.singleton "a" 3) "a") ∧
      "a" ∉ n.service.stateCache.cached ∧ "a" ∉ n.ingestions :=
  ⟨by decide, by decide, _, rfl,
    @startup_orphan_persists ContentService.firstCached 10 (fun _ => none) "a"
      (AList.singleton "a" 3) ⟨AList.singleton "a" 3, ⟨∅, ∅, []⟩, 0⟩ (by decide) [.cacheCleanup ∅] _ (by decide) rfl⟩

end Node

/-! ## The sizes the index records -/

namespace ContentService

/-- The index records every object it tracks at the bytes of its file. -/
def IndexExact (s : ContentService) : Prop :=
  ∀ a size, s.stateCache.cached.lookup a = some size → s.dataDir.lookup a = some size

variable {s : ContentService}

theorem IndexExact.dropSet (h : IndexExact s) (p : ObjectId → Bool) :
    IndexExact (s.dropSet p) := by
  intro a size ha
  simp only [ContentService.dropSet, lookup_restrict] at ha ⊢
  split_ifs at ha ⊢
  exact h a size ha

/-- A change that leaves the index alone and writes the file of one untracked object only. -/
theorem IndexExact.frame (h : IndexExact s) {s' : ContentService} {a : ObjectId}
    (hc : s'.stateCache.cached = s.stateCache.cached) (ha : a ∉ s.stateCache.cached)
    (hd : ∀ b, b ≠ a → s'.dataDir.lookup b = s.dataDir.lookup b) : IndexExact s' := by
  intro b size hb
  rw [hc] at hb
  rw [hd b fun e => ha (e ▸ mem_of_lookup_eq_some hb)]
  exact h b size hb

/-- Committing an object whose file holds the expected bytes. -/
theorem IndexExact.commit (fileType : ObjectId → Option String) (h : IndexExact s)
    {a : ObjectId} {e : Nat} (hf : s.dataDir.lookup a = some e) :
    IndexExact (s.commitContent fileType a e) := by
  intro b size hb
  simp only [commitContent, StateCache.setContentMimeType_cached, StateCache.newContent_cached,
    StateCache.dropPendingDownload_cached] at hb
  by_cases hba : b = a
  · subst hba
    rw [AList.lookup_insert, Option.some.injEq] at hb
    exact hb ▸ hf
  · rw [AList.lookup_insert_ne hba] at hb
    exact h b size hb

/-- `startupInit` keeps the index exact when it was exact for the files still there. -/
theorem IndexExact.startupInit (fileType : ObjectId → Option String)
    (supportedObjects : SupportedObjects)
    (h : ∀ a size, s.stateCache.cached.lookup a = some size → a ∈ s.dataDir →
      s.dataDir.lookup a = some size) :
    IndexExact (startupInit fileType supportedObjects s) := by
  intro a size ha
  rw [startupInit_cached, lookup_restrict] at ha
  rw [startupInit_dataDir, lookup_restrict]
  split_ifs at ha ⊢ with hk
  exact h a size ha (keeps_mem supportedObjects hk)

variable {policy : EvictionPolicy} {storage : Nat} {fileType : ObjectId → Option String}

/-- Every event of a node that keeps the interleaving invariant keeps the index exact. -/
theorem IndexExact.step {n n' : Node} (hI : Node.Inv n) (h : IndexExact n.service) {ev : Event}
    (hs : n.step policy storage fileType ev = some n') : IndexExact n'.service := by
  have hevict : ∀ e, IndexExact (n.service.evictFor policy storage e).1 := fun e => by
    obtain ⟨p, -, hp⟩ := n.service.evictFor_eq_dropSet policy storage e
    exact hp ▸ h.dropSet p
  have hres : ∀ {a : ObjectId}, a ∉ n.service.stateCache.cached → ∀ e,
      IndexExact (n.service.reserve a e) :=
    fun ha e => h.frame rfl ha fun b hb => AList.lookup_insert_ne hb
  cases ev with
  | handleNewContent a e =>
    obtain ⟨hd, -, rfl⟩ := Node.step_handleNewContent hs
    simp only [handleNewContent]
    split_ifs
    · exact hevict e
    · exact hres (hI.not_mem_cached hd) e
  | timer a =>
    obtain ⟨e, -, rfl⟩ := Node.step_timer hs
    exact hevict e
  | resume a =>
    obtain ⟨e, hl, rfl⟩ := Node.step_resume hs
    exact hres (hI.not_cached a (mem_of_lookup_eq_some hl)) e
  | source a ev =>
    obtain ⟨e, r, q, w, -, rfl⟩ := Node.step_source hs
    exact h
  | written a =>
    obtain ⟨e, ph, s', ph', hl, hw, rfl⟩ := Node.step_written hs
    obtain ⟨w, k, rfl, -⟩ := Ingestion.written_writeNext hw e
    exact h.frame rfl (hI.not_cached a (mem_of_lookup_eq_some hl))
      fun b hb => AList.lookup_insert_ne hb
  | callback a =>
    obtain ⟨e, err, r, q, w, -, -, ⟨rfl, rfl, rfl, rfl⟩ | ⟨-, rfl⟩⟩ := Node.step_callback hs
    · exact h
    · exact drop_eq_dropSet _ a ▸ h.dropSet _
  | mimeDetected a =>
    obtain ⟨e, hl, rfl⟩ := Node.step_mimeDetected hs
    exact h.commit fileType (hI.file a _ hl)
  | drop a =>
    obtain ⟨-, rfl⟩ := Node.step_drop hs
    exact drop_eq_dropSet _ a ▸ h.dropSet _
  | cacheCleanup S =>
    rw [Node.step_cacheCleanup hs]
    exact cacheCleanup_eq_dropSet S _ ▸ h.dropSet _

end ContentService

namespace Node

variable {policy : EvictionPolicy} {storage : Nat} {fileType : ObjectId → Option String}

/-- From a service whose index recorded each object whose file is still there at that file's
bytes, every node reached records every tracked object at the bytes of its file. -/
theorem index_sizes_exact (supportedObjects : SupportedObjects) (s : ContentService)
    (hs : ∀ a size, s.stateCache.cached.lookup a = some size → a ∈ s.dataDir →
      s.dataDir.lookup a = some size)
    {n : Node} (h : Reachable policy storage fileType (started fileType supportedObjects s) n) :
    ∀ a size, n.service.stateCache.cached.lookup a = some size →
      n.service.dataDir.lookup a = some size := by
  suffices Inv n ∧ n.service.IndexExact from this.2
  induction h with
  | refl => exact ⟨Inv.started supportedObjects s, .startupInit fileType supportedObjects hs⟩
  | step ev _ _ hs' ih => exact ⟨ih.1.step hs', ih.2.step ih.1 hs'⟩

theorem index_sizes_exact_committed :
    (∀ a size, (∅ : Table Nat).lookup a = some size → a ∈ (∅ : Table Nat) →
      (∅ : Table Nat).lookup a = some size) ∧
    ∃ n, Reachable ContentService.firstCached 10 (fun _ => none)
        (started (fun _ => none) ∅ ⟨∅, ⟨∅, ∅, []⟩, 0⟩) n ∧
      n.service.stateCache.cached.lookup "b" = some 2 ∧
      ∀ a size, n.service.stateCache.cached.lookup a = some size →
        n.service.dataDir.lookup a = some size :=
  have hn : Reachable ContentService.firstCached 10 (fun _ => none)
      (started (fun _ => none) ∅ ⟨∅, ⟨∅, ∅, []⟩, 0⟩) _ :=
    reachable_of_run [.handleNewContent "b" 2, .source "b" (.data 2), .written "b",
      .source "b" .end, .callback "b", .mimeDetected "b"] rfl
  ⟨fun _ _ h _ => h, _, hn, rfl, @index_sizes_exact ContentService.firstCached 10 (fun _ => none)
    ∅ ⟨∅, ⟨∅, ∅, []⟩, 0⟩ (fun _ _ h _ => h) _ hn⟩

end Node

end Joystream
