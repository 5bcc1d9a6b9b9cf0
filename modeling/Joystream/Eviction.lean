import Joystream.ContentService

/-!
# Periodic cleanup and cache eviction

Both remove objects the cache index tracks, through `drop`. `cacheCleanup` drops every tracked
object the chain no longer supports; `evictCacheUntilFreeSpaceReached` drops the candidates the
index names until enough space is free, and waits when the index names none.

**Theorem (`cacheCleanup_spec`).** After `cacheCleanup`, every tracked id is supported; the
tracked ids the snapshot lacks lost their files and index entries; the counter fell by exactly
their files' bytes; every other file and index entry is as it was.

**Theorem (`evict_terminates_minimal`).** One synchronous run of the eviction loop drops at most
as many objects as the index holds, never drops once `freeSpace` has reached the target, and,
when the free space plus the bytes of the tracked files reach the target, ends at the target
without waiting.

Both rest on `dropAll_eq_dropSet`, and the second on one quantity that a drop of a tracked
id keeps: `freeSpace` plus the bytes of the tracked files.
-/

namespace Joystream

namespace ContentService

/-! ## Cleanup -/

/-- `cacheCleanup`, once `fetchSupportedDataObjects` has returned `supportedObjects`. -/
def cacheCleanup (supportedObjects : SupportedObjects) (s : ContentService) : ContentService :=
  let cachedObjectsIds := s.stateCache.getCachedObjectsIds
  cachedObjectsIds.foldl
    (fun s objectId => if objectId ∈ supportedObjects then s else s.drop objectId) s

theorem foldl_drop_unless (p : ObjectId → Prop) [DecidablePred p] (l : List ObjectId)
    (s : ContentService) :
    l.foldl (fun s x => if p x then s else s.drop x) s = s.dropAll (l.filter fun x => ¬p x) := by
  induction l generalizing s with
  | nil => rfl
  | cons a l ih => by_cases h : p a <;> simp [h, ih, dropAll]

theorem cacheCleanup_eq_dropSet (supportedObjects : SupportedObjects) (s : ContentService) :
    s.cacheCleanup supportedObjects =
      s.dropSet fun x => x ∈ s.stateCache.cached ∧ x ∉ supportedObjects := by
  rw [cacheCleanup, foldl_drop_unless, dropAll_eq_dropSet]
  congr 1
  funext x
  simp [StateCache.getCachedObjectsIds, AList.mem_keys]

/-- `cacheCleanup` removes exactly the tracked objects the snapshot lacks, with their bytes. -/
theorem cacheCleanup_spec (supportedObjects : SupportedObjects) (s : ContentService) :
    let s' := s.cacheCleanup supportedObjects
    (∀ x ∈ s'.stateCache.cached, x ∈ supportedObjects) ∧
    (∀ x ∈ s.stateCache.cached, x ∉ supportedObjects →
      x ∉ s'.dataDir ∧ x ∉ s'.stateCache.cached ∧ x ∉ s'.stateCache.mimeTypes) ∧
    s'.contentSizeSum = s.contentSizeSum -
      sizeSum (restrict (fun x => x ∈ s.stateCache.cached ∧ x ∉ supportedObjects) s.dataDir) ∧
    ∀ x, x ∈ supportedObjects ∨ x ∉ s.stateCache.cached →
      s'.dataDir.lookup x = s.dataDir.lookup x ∧
      s'.stateCache.cached.lookup x = s.stateCache.cached.lookup x ∧
      s'.stateCache.mimeTypes.lookup x = s.stateCache.mimeTypes.lookup x ∧
      (x ∈ s'.stateCache.pendingDownloads ↔ x ∈ s.stateCache.pendingDownloads) := by
  simp only [cacheCleanup_eq_dropSet, dropSet]
  refine ⟨fun x hx => ?_, fun x hx hS => by simp [hS, hx], trivial, fun x hx => ?_⟩
  · by_contra hS; simp [hS] at hx
  · rcases hx with hx | hx <;> simp [hx]

/-! ## Eviction -/

/-- Where one synchronous run of the eviction loop stops. -/
structure Eviction where
  state : ContentService
  /-- The evicted ids, in order; `itemsDropped` is their number. -/
  dropped : List ObjectId
  /-- Whether the loop stopped in its `else` branch, to wait 1000 ms. -/
  waiting : Bool

variable (policy : EvictionPolicy) (storage : Nat)

/-- `evictCacheUntilFreeSpaceReached`, from an entry to its loop (the call, or the end of a
wait) to the next point where it returns or waits. -/
def evictCacheUntilFreeSpaceReached (targetFreeSpace : Int) (s : ContentService) : Eviction :=
  if s.freeSpace storage < targetFreeSpace then
    match _h : policy.getCacheEvictCandidateObjectId s.stateCache with
    | some evictCandidateId =>
      let r := evictCacheUntilFreeSpaceReached targetFreeSpace (s.drop evictCandidateId)
      { r with dropped := evictCandidateId :: r.dropped }
    | none => ⟨s, [], true⟩
  else ⟨s, [], false⟩
termination_by s.stateCache.cached.keys.length
decreasing_by
  simpa using keys_length_erase_lt (policy.candidate_mem _ _ _h)

/-- The bytes of the files of the tracked objects. -/
def trackedSize (s : ContentService) : Nat :=
  (s.stateCache.getCachedObjectsIds.map (sizeOf s.dataDir)).sum

theorem freeSpace_drop (s : ContentService) (a : ObjectId) :
    (s.drop a).freeSpace storage = s.freeSpace storage + sizeOf s.dataDir a := by
  simp only [freeSpace, drop_contentSizeSum]
  omega

theorem trackedSize_drop (s : ContentService) {a : ObjectId} (ha : a ∈ s.stateCache.cached) :
    (s.drop a).trackedSize + sizeOf s.dataDir a = s.trackedSize := by
  have hk : a ∈ s.stateCache.cached.keys := AList.mem_keys.1 ha
  have hnd := s.stateCache.cached.keys_nodup
  have hmap : ((s.stateCache.getCachedObjectsIds.erase a).map (sizeOf (s.dataDir.erase a))) =
      (s.stateCache.getCachedObjectsIds.erase a).map (sizeOf s.dataDir) :=
    List.map_congr_left fun x hx => sizeOf_erase_ne ((hnd.mem_erase_iff.1 hx).1)
  simp only [trackedSize, drop_stateCache, drop_dataDir, StateCache.getCachedObjectsIds,
    StateCache.dropById_cached, AList.keys_erase] at hmap ⊢
  rw [hmap, ((List.perm_cons_erase hk).map _).sum_eq, List.map_cons, List.sum_cons, Nat.add_comm]

variable {policy storage}

theorem evict_of_ge {t : Int} {s : ContentService} (h : ¬s.freeSpace storage < t) :
    evictCacheUntilFreeSpaceReached policy storage t s = ⟨s, [], false⟩ := by
  rw [evictCacheUntilFreeSpaceReached, if_neg h]

theorem evict_of_none {t : Int} {s : ContentService} (hlt : s.freeSpace storage < t)
    (h : policy.getCacheEvictCandidateObjectId s.stateCache = none) :
    evictCacheUntilFreeSpaceReached policy storage t s = ⟨s, [], true⟩ := by
  rw [evictCacheUntilFreeSpaceReached, if_pos hlt]
  split <;> simp_all

theorem evict_of_some {t : Int} {s : ContentService} {a : ObjectId}
    (hlt : s.freeSpace storage < t) (h : policy.getCacheEvictCandidateObjectId s.stateCache = some a) :
    evictCacheUntilFreeSpaceReached policy storage t s =
      let r := evictCacheUntilFreeSpaceReached policy storage t (s.drop a)
      { r with dropped := a :: r.dropped } := by
  rw [evictCacheUntilFreeSpaceReached, if_pos hlt]
  split <;> simp_all

/-- The loop's end state is its drops, made one after the other. -/
theorem evict_state (t : Int) (s : ContentService) :
    (evictCacheUntilFreeSpaceReached policy storage t s).state =
      s.dropAll (evictCacheUntilFreeSpaceReached policy storage t s).dropped := by
  induction s using (evictCacheUntilFreeSpaceReached.induct policy storage t) with
  | case1 s hlt a h ih => rw [evict_of_some hlt h]; exact ih
  | case2 s hlt h => rw [evict_of_none hlt h]; rfl
  | case3 s hge => rw [evict_of_ge hge]; rfl

theorem evict_dropped_length (t : Int) (s : ContentService) :
    (evictCacheUntilFreeSpaceReached policy storage t s).dropped.length ≤
      s.stateCache.cached.keys.length := by
  induction s using (evictCacheUntilFreeSpaceReached.induct policy storage t) with
  | case1 s hlt a h ih =>
    have := keys_length_erase_lt (policy.candidate_mem _ _ h)
    rw [evict_of_some hlt h]
    simp only [drop_stateCache, StateCache.dropById_cached] at ih
    simp only [List.length_cons]
    omega
  | case2 s hlt h => rw [evict_of_none hlt h]; simp
  | case3 s hge => rw [evict_of_ge hge]; simp

/-- The loop only evicts objects the index tracked when it began. -/
theorem evict_dropped_cached (t : Int) (s : ContentService) :
    ∀ a ∈ (evictCacheUntilFreeSpaceReached policy storage t s).dropped, a ∈ s.stateCache.cached := by
  induction s using (evictCacheUntilFreeSpaceReached.induct policy storage t) with
  | case1 s hlt b h ih =>
    rw [evict_of_some hlt h]
    intro a ha
    rcases List.mem_cons.1 ha with rfl | ha
    · exact policy.candidate_mem _ _ h
    · exact (AList.mem_erase.1 (by simpa using ih a ha)).2
  | case2 s hlt h => rw [evict_of_none hlt h]; simp
  | case3 s hge => rw [evict_of_ge hge]; simp

/-- A loop that stops without waiting has reached its target. -/
theorem evict_target_of_not_waiting (t : Int) (s : ContentService)
    (h : (evictCacheUntilFreeSpaceReached policy storage t s).waiting = false) :
    t ≤ (evictCacheUntilFreeSpaceReached policy storage t s).state.freeSpace storage := by
  induction s using (evictCacheUntilFreeSpaceReached.induct policy storage t) with
  | case1 s hlt b hb ih => rw [evict_of_some hlt hb] at h ⊢; exact ih h
  | case2 s hlt hb => rw [evict_of_none hlt hb] at h; cases h
  | case3 s hge => rw [evict_of_ge hge]; exact le_of_not_lt hge

/-- Each drop of the loop is made while the free space is still below the target. -/
theorem evict_drops_below_target (t : Int) (s : ContentService) :
    ∀ l a r, (evictCacheUntilFreeSpaceReached policy storage t s).dropped = l ++ a :: r →
      (s.dropAll l).freeSpace storage < t := by
  induction s using (evictCacheUntilFreeSpaceReached.induct policy storage t) with
  | case1 s hlt b h ih =>
    intro l a r hd
    rw [evict_of_some hlt h] at hd
    cases l with
    | nil => exact hlt
    | cons c l =>
      simp only [List.cons_append, List.cons.injEq] at hd
      obtain ⟨rfl, hd⟩ := hd
      exact ih l a r hd
  | case2 s hlt h => intro l a r hd; rw [evict_of_none hlt h] at hd; simp at hd
  | case3 s hge => intro l a r hd; rw [evict_of_ge hge] at hd; simp at hd

/-- When the tracked files hold enough bytes, the loop reaches the target without waiting. -/
theorem evict_reaches_target (hlive : ∀ c : StateCache, c.cached.keys ≠ [] →
      (policy.getCacheEvictCandidateObjectId c).isSome) (t : Int) (s : ContentService)
    (hroom : t ≤ s.freeSpace storage + s.trackedSize) :
    (evictCacheUntilFreeSpaceReached policy storage t s).waiting = false ∧
      t ≤ (evictCacheUntilFreeSpaceReached policy storage t s).state.freeSpace storage := by
  induction s using (evictCacheUntilFreeSpaceReached.induct policy storage t) with
  | case1 s hlt a h ih =>
    rw [evict_of_some hlt h]
    have := trackedSize_drop s (policy.candidate_mem _ _ h)
    exact ih (by rw [freeSpace_drop]; omega)
  | case2 s hlt h =>
    have hnil : s.stateCache.cached.keys = [] := by
      by_contra hne; simpa [h] using hlive _ hne
    have : s.trackedSize = 0 := by simp [trackedSize, StateCache.getCachedObjectsIds, hnil]
    omega
  | case3 s hge => rw [evict_of_ge hge]; exact ⟨rfl, le_of_not_lt hge⟩

/-- One synchronous run of the eviction loop, for any policy that names a tracked object while
there is one: it is its own drops in order, at most one per tracked object, none made once the
target is reached; and it reaches the target without waiting when the tracked files can free
enough. -/
theorem evict_terminates_minimal (hlive : ∀ c : StateCache, c.cached.keys ≠ [] →
      (policy.getCacheEvictCandidateObjectId c).isSome) (t : Int) (s : ContentService) :
    let e := evictCacheUntilFreeSpaceReached policy storage t s
    e.state = s.dropAll e.dropped ∧
    e.dropped.length ≤ s.stateCache.cached.keys.length ∧
    (∀ l a r, e.dropped = l ++ a :: r → (s.dropAll l).freeSpace storage < t) ∧
    (t ≤ s.freeSpace storage + s.trackedSize →
      e.waiting = false ∧ t ≤ e.state.freeSpace storage) :=
  ⟨evict_state t s, evict_dropped_length t s, evict_drops_below_target t s,
    evict_reaches_target hlive t s⟩

/-- The policy that names the first object of the index. -/
def firstCached : EvictionPolicy where
  getCacheEvictCandidateObjectId c := c.cached.keys.head?
  candidate_mem _ _ h := AList.mem_keys.2 (List.mem_of_mem_head? h)

theorem evict_terminates_minimal_firstCached :
    (∀ c : StateCache, c.cached.keys ≠ [] → (firstCached.getCacheEvictCandidateObjectId c).isSome) ∧
    let s : ContentService := ⟨AList.singleton "a" 6, ⟨AList.singleton "a" 6, ∅, []⟩, 6⟩
    let e := evictCacheUntilFreeSpaceReached firstCached 10 6 s
    e.state = s.dropAll e.dropped ∧
    e.dropped.length ≤ s.stateCache.cached.keys.length ∧
    (∀ l a r, e.dropped = l ++ a :: r → (s.dropAll l).freeSpace 10 < 6) ∧
    (6 ≤ s.freeSpace 10 + s.trackedSize → e.waiting = false ∧ 6 ≤ e.state.freeSpace 10) :=
  have hlive : ∀ c : StateCache, c.cached.keys ≠ [] →
      (firstCached.getCacheEvictCandidateObjectId c).isSome := fun c h => by
    cases hk : c.cached.keys with
    | nil => exact absurd hk h
    | cons a l => simp [firstCached, hk]
  ⟨hlive, evict_terminates_minimal hlive 6 _⟩

end ContentService

end Joystream
