import Joystream.Startup
import Joystream.Eviction

/-!
# Reconciling again, and cleaning again

The spec says the counter and the index can be rebuilt from the disk and the chain's snapshot
at any time, which is what `startupInit` does. A service that `startupInit` has reconciled is
`Reconciled` for its snapshot: every file is supported at its size and has a MIME type, and
every tracked object has a file.

**Theorem (`startupInit_fixed_point`).** Reconciling a reconciled service against the same
snapshot changes no file, no index entry, no MIME type and no pending download, and adds the
bytes of the directory to the counter once more: a second `startupInit` on one instance counts
every file twice. A node that reconciled from a fresh counter and restarts with a fresh counter
reconciles to the very same service.

**Theorem (`cacheCleanup_noop`).** A cleanup changes nothing exactly when the snapshot supports
every tracked object; so a cleanup right after reconciliation, against the same snapshot, drops
nothing.

**Theorem (`cacheCleanup_cacheCleanup`).** Two cleanups in a row do what one cleanup does against
the objects both snapshots support: cleanups commute, and a second one against the same snapshot
drops nothing more.
-/

namespace Joystream

theorem sizeSum_eq_sum_keys (d : Table Nat) : sizeSum d = (d.keys.map (sizeOf d)).sum :=
  go d.nodupKeys
where
  go : ∀ {l : List (Σ _ : ObjectId, Nat)}, l.NodupKeys →
      (l.map fun e => e.2).sum = (l.keys.map fun x => (l.dlookup x).getD 0).sum
    | [], _ => rfl
    | ⟨k, v⟩ :: l, hl => by
      rw [List.nodupKeys_cons] at hl
      have hne : ∀ x ∈ l.keys, (List.dlookup x (⟨k, v⟩ :: l)).getD 0 = (List.dlookup x l).getD 0 :=
        fun x hx => by rw [List.dlookup_cons_ne _ _ (fun h => hl.1 (h ▸ hx))]
      simp only [List.map_cons, List.sum_cons, List.keys_cons, List.dlookup_cons_eq,
        Option.getD_some, List.map_congr_left hne, go hl.2]

namespace ContentService

variable (fileType : ObjectId → Option String) (supportedObjects : SupportedObjects)

/-- What reconciliation leaves: every file supported at its size and typed, and every tracked
object with a file. -/
structure Reconciled (s : ContentService) : Prop where
  supported : ∀ x ∈ s.dataDir, keeps supportedObjects s.dataDir x
  typed : ∀ x ∈ s.dataDir, ∃ m, s.stateCache.getContentMimeType x = some m ∧ m ≠ ""
  cached_file : ∀ x ∈ s.stateCache.cached, x ∈ s.dataDir

theorem Reconciled.startupInit (s : ContentService) :
    Reconciled supportedObjects (startupInit fileType supportedObjects s) where
  supported x hx := by
    rw [startupInit_dataDir] at hx ⊢
    have hk := (mem_restrict.1 hx).1
    have hsz : sizeOf (restrict (keeps supportedObjects s.dataDir) s.dataDir) x =
        sizeOf s.dataDir x := by
      rw [sizeOf_restrict, if_pos hk]
    simp only [keeps, decide_eq_true_eq, hsz] at hk ⊢
    exact ⟨hx, hk.2⟩
  typed := startupInit_mimeType fileType supportedObjects s
  cached_file x hx := by
    rw [startupInit_cached] at hx
    rw [startupInit_dataDir]
    exact mem_restrict.2 ⟨(mem_restrict.1 hx).1, keeps_mem _ (mem_restrict.1 hx).1⟩

/-! ## Reconciling a reconciled service -/

variable {fileType supportedObjects}

theorem checkContentFile_of_reconciled {s : ContentService} (h : Reconciled supportedObjects s)
    {x : ObjectId} (hx : x ∈ s.dataDir) (c : Int) :
    checkContentFile fileType supportedObjects { s with contentSizeSum := c } x =
      { s with contentSizeSum := c + sizeOf s.dataDir x } := by
  have hS : supportedObjects.lookup x = some (sizeOf s.dataDir x) := by
    simpa [keeps, hx] using h.supported x hx
  obtain ⟨m, hm, hne⟩ := h.typed x hx
  simp only [StateCache.getContentMimeType] at hm
  simp [checkContentFile, fileSize, hS, StateCache.getContentMimeType, hm, hne]

theorem foldl_checkContentFile_of_reconciled {s : ContentService}
    (h : Reconciled supportedObjects s) :
    ∀ (l : List ObjectId), (∀ x ∈ l, x ∈ s.dataDir) → ∀ c : Int,
      l.foldl (checkContentFile fileType supportedObjects) { s with contentSizeSum := c } =
        { s with contentSizeSum := c + (l.map (sizeOf s.dataDir)).sum }
  | [], _, c => by simp
  | x :: l, hl, c => by
    rw [List.foldl_cons, checkContentFile_of_reconciled h (hl x (List.mem_cons_self x l)),
      foldl_checkContentFile_of_reconciled h l (fun y hy => hl y (List.mem_cons_of_mem x hy)),
      List.map_cons, List.sum_cons, Nat.cast_add, add_assoc]

theorem foldl_checkCacheItem_of_mem (s : ContentService) :
    ∀ l : List ObjectId, (∀ x ∈ l, x ∈ s.dataDir) → l.foldl checkCacheItem s = s
  | [], _ => rfl
  | x :: l, hl => by
    rw [List.foldl_cons, checkCacheItem, if_pos (by simpa [«exists»] using hl x (by simp))]
    exact foldl_checkCacheItem_of_mem s l fun y hy => hl y (List.mem_cons_of_mem x hy)

theorem startupInit_of_reconciled {s : ContentService} (h : Reconciled supportedObjects s) :
    startupInit fileType supportedObjects s =
      { s with contentSizeSum := s.contentSizeSum + sizeSum s.dataDir } := by
  have h₁ := @foldl_checkContentFile_of_reconciled fileType supportedObjects s h s.dataDir.keys
    (fun x hx => AList.mem_keys.1 hx) s.contentSizeSum
  rw [startupInit]
  simp only at h₁ ⊢
  rw [h₁, ← sizeSum_eq_sum_keys]
  exact foldl_checkCacheItem_of_mem _ _ fun x hx => h.cached_file x (AList.mem_keys.1 hx)

/-- Reconciling a reconciled service against the same snapshot changes nothing but the counter,
which counts the directory once more; and after a reconciliation from a fresh counter, a restart
with a fresh counter reconciles to the same service. -/
theorem startupInit_fixed_point (s : ContentService) :
    startupInit fileType supportedObjects (startupInit fileType supportedObjects s) =
      { startupInit fileType supportedObjects s with
        contentSizeSum := (startupInit fileType supportedObjects s).contentSizeSum +
          sizeSum (startupInit fileType supportedObjects s).dataDir } ∧
    (s.contentSizeSum = 0 →
      startupInit fileType supportedObjects
          { startupInit fileType supportedObjects s with contentSizeSum := 0 } =
        startupInit fileType supportedObjects s) := by
  have h := Reconciled.startupInit fileType supportedObjects s
  refine ⟨startupInit_of_reconciled h, fun h0 => ?_⟩
  have h' : Reconciled supportedObjects
      { startupInit fileType supportedObjects s with contentSizeSum := 0 } :=
    ⟨h.supported, h.typed, h.cached_file⟩
  have hc := startupInit_contentSizeSum fileType supportedObjects s
  rw [h0, zero_add] at hc
  rw [startupInit_of_reconciled h']
  simp only [zero_add, ← hc]

theorem startupInit_fixed_point_fresh :
    (⟨AList.singleton "a" 3, ⟨∅, ∅, []⟩, 0⟩ : ContentService).contentSizeSum = 0 ∧
    startupInit (fun _ => none) (AList.singleton "a" 3)
        { startupInit (fun _ => none) (AList.singleton "a" 3)
            ⟨AList.singleton "a" 3, ⟨∅, ∅, []⟩, 0⟩ with contentSizeSum := 0 } =
      startupInit (fun _ => none) (AList.singleton "a" 3) ⟨AList.singleton "a" 3, ⟨∅, ∅, []⟩, 0⟩ :=
  ⟨rfl, (startupInit_fixed_point _).2 rfl⟩

/-! ## Cleaning -/

theorem dropSet_dropSet (s : ContentService) (p q : ObjectId → Bool) :
    (s.dropSet p).dropSet q = s.dropSet fun x => p x || q x := by
  have hd : ∀ {β : Type} (d : Table β), restrict (fun x => !q x) (restrict (fun x => !p x) d) =
      restrict (fun x => !(p x || q x)) d := fun d => by
    rw [restrict_restrict]; exact restrict_congr d fun x _ => by simp
  have hsum := sizeSum_restrict_add p (restrict (fun x => p x || q x) s.dataDir)
  rw [restrict_restrict, restrict_restrict] at hsum
  rw [restrict_congr s.dataDir (fun x _ => by cases p x <;> simp :
      ∀ x ∈ s.dataDir, ((p x || q x) && p x) = p x),
    restrict_congr s.dataDir (fun x _ => by cases p x <;> simp :
      ∀ x ∈ s.dataDir, ((p x || q x) && !p x) = (!p x && q x))] at hsum
  simp only [dropSet, hd, List.filter_filter, restrict_restrict, mk.injEq, StateCache.mk.injEq,
    true_and]
  refine ⟨List.filter_congr fun x _ => by cases p x <;> simp, ?_⟩
  omega

/-- A cleanup changes nothing exactly when the snapshot supports every tracked object; so it
drops nothing right after reconciliation against the same snapshot. -/
theorem cacheCleanup_noop (s : ContentService) :
    (s.cacheCleanup supportedObjects = s ↔ ∀ x ∈ s.stateCache.cached, x ∈ supportedObjects) ∧
    (startupInit fileType supportedObjects s).cacheCleanup supportedObjects =
      startupInit fileType supportedObjects s := by
  have iff : ∀ t : ContentService,
      t.cacheCleanup supportedObjects = t ↔ ∀ x ∈ t.stateCache.cached, x ∈ supportedObjects := by
    intro t
    rw [cacheCleanup_eq_dropSet]
    constructor
    · intro h x hx
      by_contra hS
      have h' := congrArg (fun u => x ∈ u.stateCache.cached) h
      simp [dropSet, hS, hx] at h'
    · intro h
      have : (fun x => decide (x ∈ t.stateCache.cached ∧ x ∉ supportedObjects)) = fun _ => false :=
        funext fun x => decide_eq_false fun hx => hx.2 (h x hx.1)
      rw [this, dropSet_false]
  refine ⟨iff s, (iff _).2 fun x hx => ?_⟩
  have hr := Reconciled.startupInit fileType supportedObjects s
  have hk := hr.supported x (hr.cached_file x hx)
  simp only [keeps, decide_eq_true_eq] at hk
  exact AList.lookup_isSome.1 (by simp [hk.2])

/-- Two cleanups in a row drop what one cleanup drops against the objects both snapshots
support. -/
theorem cacheCleanup_cacheCleanup (S T : SupportedObjects) (s : ContentService) :
    (s.cacheCleanup S).cacheCleanup T = s.cacheCleanup (restrict (fun x => x ∈ T) S) := by
  rw [cacheCleanup_eq_dropSet, cacheCleanup_eq_dropSet, cacheCleanup_eq_dropSet, dropSet_dropSet]
  congr 1
  funext x
  by_cases hc : x ∈ s.stateCache.cached <;> by_cases hS : x ∈ S <;> by_cases hT : x ∈ T <;>
    simp [dropSet, hc, hS, hT]

end ContentService

end Joystream
