import Joystream.ContentService

/-!
# `startupInit`: reconciling the disk, the chain and the cache index

`startupInit` walks the data directory once, then the cache index once. Each file's size is
first added to `contentSizeSum`; a file the chain does not support, or supports at another
size, is then dropped, which takes the size off again. A kept file gets a MIME type if the index
has none for it. Last, every index entry whose file is gone is dropped.

**Theorem (`startupInit_reconciles`).** For every directory, snapshot and index, `startupInit`
leaves exactly the files `keeps` selects, unchanged; the counter grows by exactly their bytes;
the index keeps exactly the entries of those files; and every kept file has a MIME type.

The proof is one invariant per loop, over the prefix of the listing processed so far.
-/

namespace Joystream

namespace ContentService

variable (fileType : ObjectId → Option String) (supportedObjects : SupportedObjects)

/-- The body of `startupInit`'s loop over the data directory, for the file `objectId`. -/
def checkContentFile (s : ContentService) (objectId : ObjectId) : ContentService :=
  let fileSize := s.fileSize objectId
  let s := { s with contentSizeSum := s.contentSizeSum + fileSize }
  match supportedObjects.lookup objectId with
  | none => s.drop objectId
  | some dataObjectSize =>
    if fileSize ≠ dataObjectSize then s.drop objectId
    -- `!getContentMimeType(objectId)`: no type, or the empty one
    else if (s.stateCache.getContentMimeType objectId).getD "" = "" then
      { s with
        stateCache := s.stateCache.setContentMimeType objectId (detectMimeType fileType objectId) }
    else s

/-- The body of `startupInit`'s loop over the cache index. -/
def checkCacheItem (s : ContentService) (objectId : ObjectId) : ContentService :=
  if s.exists objectId then s else { s with stateCache := s.stateCache.dropById objectId }

/-- `startupInit`, once `fetchSupportedDataObjects` has returned `supportedObjects`. -/
def startupInit (s : ContentService) : ContentService :=
  let dataDirFiles := s.dataDir.keys
  let cachedObjectsIds := s.stateCache.getCachedObjectsIds
  let s := dataDirFiles.foldl (checkContentFile fileType supportedObjects) s
  cachedObjectsIds.foldl checkCacheItem s

/-- Whether reconciliation keeps the file `x` of `d`: it is there, and the chain supports it at
this size. -/
def keeps (d : DataDir) (x : ObjectId) : Bool :=
  decide (x ∈ d ∧ supportedObjects.lookup x = some (sizeOf d x))

/-! ## One file -/

theorem checkContentFile_spec (s : ContentService) {a : ObjectId} (ha : a ∈ s.dataDir) :
    let t := checkContentFile fileType supportedObjects s a
    t.dataDir = (if keeps supportedObjects s.dataDir a then s.dataDir else s.dataDir.erase a) ∧
    t.contentSizeSum =
      s.contentSizeSum + (if keeps supportedObjects s.dataDir a then sizeOf s.dataDir a else 0) ∧
    t.stateCache.cached =
      (if keeps supportedObjects s.dataDir a then s.stateCache.cached
        else s.stateCache.cached.erase a) ∧
    (∀ x, x ≠ a → t.stateCache.mimeTypes.lookup x = s.stateCache.mimeTypes.lookup x) ∧
    (keeps supportedObjects s.dataDir a →
      ∃ m, t.stateCache.mimeTypes.lookup a = some m ∧ m ≠ "") := by
  dsimp only
  by_cases hk : keeps supportedObjects s.dataDir a
  · have hS : supportedObjects.lookup a = some (s.fileSize a) := by
      simpa [keeps, ha, fileSize] using hk
    have ht : checkContentFile fileType supportedObjects s a =
        if (s.stateCache.getContentMimeType a).getD "" = "" then
          { s with contentSizeSum := s.contentSizeSum + s.fileSize a,
                   stateCache := s.stateCache.setContentMimeType a (detectMimeType fileType a) }
        else { s with contentSizeSum := s.contentSizeSum + s.fileSize a } := by
      simp only [checkContentFile, hS, ne_eq, not_true_eq_false, if_false]
    simp only [hk, if_true, ht]
    by_cases hm : (s.stateCache.getContentMimeType a).getD "" = ""
    · rw [if_pos hm]
      refine ⟨rfl, rfl, rfl, fun x hx => ?_, fun _ =>
        ⟨detectMimeType fileType a, ?_, detectMimeType_ne_empty _ _⟩⟩
      · simp [StateCache.setContentMimeType, AList.lookup_insert_ne hx]
      · simp [StateCache.setContentMimeType, AList.lookup_insert]
    · rw [if_neg hm]
      refine ⟨rfl, rfl, rfl, fun _ _ => rfl, fun _ => ?_⟩
      cases h : s.stateCache.mimeTypes.lookup a with
      | none => simp [StateCache.getContentMimeType, h] at hm
      | some m => exact ⟨m, rfl, by simpa [StateCache.getContentMimeType, h] using hm⟩
  · have hdrop : checkContentFile fileType supportedObjects s a =
        ({ s with contentSizeSum := s.contentSizeSum + s.fileSize a }).drop a := by
      have : supportedObjects.lookup a ≠ some (s.fileSize a) := by
        simpa [keeps, ha, fileSize] using hk
      simp only [checkContentFile]
      split
      · rfl
      · rename_i n hn
        rw [if_pos fun h => this (by rw [hn, h])]
    rw [hdrop]
    simp only [hk, if_false, Bool.false_eq_true]
    exact ⟨by simp, by simp [fileSize], by simp, fun x hx => by simp [AList.lookup_erase_ne hx],
      fun h => h.elim⟩

/-! ## The two loops -/

theorem foldl_checkContentFile (s : ContentService) (l : List ObjectId) (hnd : l.Nodup)
    (hsub : ∀ x ∈ l, x ∈ s.dataDir) :
    let t := l.foldl (checkContentFile fileType supportedObjects) s
    let stays := fun x => decide (x ∉ l) || keeps supportedObjects s.dataDir x
    t.dataDir = restrict stays s.dataDir ∧
    t.contentSizeSum = s.contentSizeSum +
      sizeSum (restrict (fun x => decide (x ∈ l) && keeps supportedObjects s.dataDir x) s.dataDir) ∧
    t.stateCache.cached = restrict stays s.stateCache.cached ∧
    ∀ x ∈ l, keeps supportedObjects s.dataDir x →
      ∃ m, t.stateCache.mimeTypes.lookup x = some m ∧ m ≠ "" := by
  induction l using List.reverseRecOn with
  | nil =>
    have : restrict (fun _ => false) s.dataDir = ∅ := AList.ext (List.filter_false _)
    simp [this]
  | append_singleton l a ih =>
    rw [List.nodup_append] at hnd
    have hal : a ∉ l := fun h => hnd.2.2 h (List.mem_singleton_self a)
    obtain ⟨hd, hs, hc, hm⟩ := ih hnd.1 fun x hx => hsub x (by simp [hx])
    intro t stays
    set u := l.foldl (checkContentFile fileType supportedObjects) s
    have htu : t = checkContentFile fileType supportedObjects u a := by simp [t, u]
    have hau : a ∈ u.dataDir := by simp [hd, hal, hsub a (by simp)]
    have hsz : sizeOf u.dataDir a = sizeOf s.dataDir a := by simp [hd, hal]
    have hku : keeps supportedObjects u.dataDir a = keeps supportedObjects s.dataDir a := by
      simp [keeps, hau, hsz, hsub a (by simp)]
    obtain ⟨td, ts, tc, tm, tk⟩ := checkContentFile_spec fileType supportedObjects u hau
    rw [← htu, hku, hsz] at *
    by_cases hk : keeps supportedObjects s.dataDir a
    · simp only [hk, if_true] at td ts tc
      have hst : stays = fun x => decide (x ∉ l) || keeps supportedObjects s.dataDir x := by
        funext x; by_cases h : x = a <;> simp [stays, h, hk]
      have hin : restrict (fun x => decide (x ∈ l ++ [a]) && keeps supportedObjects s.dataDir x)
          s.dataDir = restrict (fun x => (decide (x ∈ l) && keeps supportedObjects s.dataDir x)
            || x = a) s.dataDir :=
        restrict_congr _ fun x _ => by by_cases h : x = a <;> simp [h, hk]
      refine ⟨by rw [td, hd, hst], ?_, by rw [tc, hc, hst], fun x hx hkx => ?_⟩
      · rw [ts, hs, hin, sizeSum_restrict_or _ _ (by simp [hal])]
        push_cast; omega
      · by_cases h : x = a
        · exact h ▸ tk hk
        · rw [tm x h]; exact hm x (by simpa [h] using hx) hkx
    · simp only [hk, Bool.false_eq_true, if_false] at td ts tc
      have hst : stays = fun x => (decide (x ∉ l) || keeps supportedObjects s.dataDir x) && x ≠ a := by
        funext x; by_cases h : x = a <;> simp [stays, h, hk, hal]
      have hin : restrict (fun x => decide (x ∈ l ++ [a]) && keeps supportedObjects s.dataDir x)
          s.dataDir = restrict (fun x => decide (x ∈ l) && keeps supportedObjects s.dataDir x)
            s.dataDir :=
        restrict_congr _ fun x _ => by by_cases h : x = a <;> simp [h, hk]
      refine ⟨by rw [td, hd, restrict_erase, hst], by rw [ts, hs, hin]; omega,
        by rw [tc, hc, restrict_erase, hst], fun x hx hkx => ?_⟩
      have h : x ≠ a := fun h => hk (h ▸ hkx)
      rw [tm x h]; exact hm x (by simpa [h] using hx) hkx

theorem foldl_checkCacheItem (s : ContentService) (l : List ObjectId) :
    let t := l.foldl checkCacheItem s
    t.dataDir = s.dataDir ∧ t.contentSizeSum = s.contentSizeSum ∧
    t.stateCache.cached = restrict (fun x => decide (x ∉ l) || decide (x ∈ s.dataDir))
      s.stateCache.cached ∧
    ∀ x ∈ s.dataDir, t.stateCache.mimeTypes.lookup x = s.stateCache.mimeTypes.lookup x := by
  induction l generalizing s with
  | nil => simp
  | cons a l ih =>
    by_cases ha : a ∈ s.dataDir
    · obtain ⟨hd, hs, hc, hm⟩ := ih s
      have : checkCacheItem s a = s := by simp [checkCacheItem, «exists», ha]
      refine ⟨by simp [this, hd], by simp [this, hs], ?_, fun x hx => by simp [this, hm x hx]⟩
      simp only [List.foldl_cons, this, hc]
      exact restrict_congr _ fun x _ => by by_cases h : x = a <;> simp [h, ha]
    · set s' := checkCacheItem s a
      have hs' : s' = { s with stateCache := s.stateCache.dropById a } := by
        simp [s', checkCacheItem, «exists», ha]
      obtain ⟨hd, hs, hc, hm⟩ := ih s'
      simp only [List.foldl_cons]
      refine ⟨by simp [hd, hs'], by simp [hs, hs'], ?_, fun x hx => ?_⟩
      · rw [hc, hs']
        simp only [StateCache.dropById_cached, erase_eq_restrict, restrict_restrict]
        exact restrict_congr _ fun x _ => by by_cases h : x = a <;> simp [h, ha]
      · have hxa : x ≠ a := fun h => ha (h ▸ hx)
        rw [hm x (by simpa [hs'] using hx), hs']
        exact AList.lookup_erase_ne hxa

/-! ## The whole reconciliation -/

theorem keeps_mem {d : DataDir} {x : ObjectId} (h : keeps supportedObjects d x) : x ∈ d := by
  simp only [keeps, decide_eq_true_eq] at h; exact h.1

/-- The first loop, over the whole listing. -/
theorem checkContentFiles_spec (s : ContentService) :
    let u := s.dataDir.keys.foldl (checkContentFile fileType supportedObjects) s
    u.dataDir = restrict (keeps supportedObjects s.dataDir) s.dataDir ∧
    u.contentSizeSum = s.contentSizeSum + sizeSum (restrict (keeps supportedObjects s.dataDir) s.dataDir) ∧
    u.stateCache.cached = restrict (fun x => decide (x ∉ s.dataDir) || keeps supportedObjects s.dataDir x)
      s.stateCache.cached ∧
    ∀ x, keeps supportedObjects s.dataDir x →
      ∃ m, u.stateCache.mimeTypes.lookup x = some m ∧ m ≠ "" := by
  obtain ⟨hd, hs, hc, hm⟩ := foldl_checkContentFile fileType supportedObjects s s.dataDir.keys
    s.dataDir.keys_nodup fun x hx => AList.mem_keys.2 hx
  have hst : (fun x => decide (x ∉ s.dataDir.keys) || keeps supportedObjects s.dataDir x) =
      fun x => decide (x ∉ s.dataDir) || keeps supportedObjects s.dataDir x := by
    funext x; simp [AList.mem_keys]
  refine ⟨?_, ?_, by rw [hc, hst], fun x hx => hm x (AList.mem_keys.1 (keeps_mem _ hx)) hx⟩
  · rw [hd, hst]; exact restrict_congr _ fun x hx => by simp [hx]
  · have : restrict (fun x => decide (x ∈ s.dataDir.keys) && keeps supportedObjects s.dataDir x)
        s.dataDir = restrict (keeps supportedObjects s.dataDir) s.dataDir :=
      restrict_congr _ fun x hx => by simp [AList.mem_keys.1 hx]
    rw [hs, this]

theorem startupInit_dataDir (s : ContentService) :
    (startupInit fileType supportedObjects s).dataDir =
      restrict (keeps supportedObjects s.dataDir) s.dataDir := by
  rw [startupInit, (foldl_checkCacheItem _ _).1]
  exact (checkContentFiles_spec fileType supportedObjects s).1

theorem startupInit_contentSizeSum (s : ContentService) :
    (startupInit fileType supportedObjects s).contentSizeSum =
      s.contentSizeSum + sizeSum (startupInit fileType supportedObjects s).dataDir := by
  rw [startupInit_dataDir, startupInit, (foldl_checkCacheItem _ _).2.1]
  exact (checkContentFiles_spec fileType supportedObjects s).2.1

theorem startupInit_cached (s : ContentService) :
    (startupInit fileType supportedObjects s).stateCache.cached =
      restrict (keeps supportedObjects s.dataDir) s.stateCache.cached := by
  obtain ⟨hd, -, hc, -⟩ := checkContentFiles_spec fileType supportedObjects s
  rw [startupInit, (foldl_checkCacheItem _ _).2.2.1, hc, restrict_restrict, hd]
  refine restrict_congr _ fun x hx => ?_
  have hxk : x ∈ s.stateCache.getCachedObjectsIds := AList.mem_keys.1 hx
  by_cases h : keeps supportedObjects s.dataDir x
  · simp [h, keeps_mem _ h]
  · simp [h, hxk]

theorem startupInit_mimeType (s : ContentService) :
    ∀ x ∈ (startupInit fileType supportedObjects s).dataDir,
      ∃ m, (startupInit fileType supportedObjects s).stateCache.getContentMimeType x = some m ∧
        m ≠ "" := by
  intro x hx
  obtain ⟨hd, -, -, hm⟩ := checkContentFiles_spec fileType supportedObjects s
  obtain ⟨hd₂, -, -, hm₂⟩ := foldl_checkCacheItem
    (s.dataDir.keys.foldl (checkContentFile fileType supportedObjects) s)
    s.stateCache.getCachedObjectsIds
  rw [startupInit_dataDir] at hx
  have hk : keeps supportedObjects s.dataDir x := (mem_restrict.1 hx).1
  rw [startupInit, StateCache.getContentMimeType, hm₂ x (by rw [hd]; exact hx)]
  exact hm x hk

/-! ## One object through reconciliation -/

theorem keeps_congr {d d' : DataDir} {x : ObjectId} (h : d.lookup x = d'.lookup x) :
    keeps supportedObjects d x = keeps supportedObjects d' x := by
  simp only [keeps, ← AList.lookup_isSome, sizeOf, h]

/-- Checking one file leaves every other object's file and MIME type alone. -/
theorem checkContentFile_lookup_ne (s : ContentService) {a x : ObjectId} (hx : x ≠ a) :
    (checkContentFile fileType supportedObjects s a).dataDir.lookup x = s.dataDir.lookup x ∧
    (checkContentFile fileType supportedObjects s a).stateCache.mimeTypes.lookup x =
      s.stateCache.mimeTypes.lookup x := by
  simp only [checkContentFile]
  split
  · simp [AList.lookup_erase_ne hx]
  · split_ifs <;> simp [StateCache.setContentMimeType, AList.lookup_erase_ne hx,
      AList.lookup_insert_ne hx]

/-- A kept file that has a MIME type is left as it is. -/
theorem checkContentFile_typed (s : ContentService) {x : ObjectId} {m : String}
    (hk : keeps supportedObjects s.dataDir x) (hm : s.stateCache.mimeTypes.lookup x = some m)
    (hne : m ≠ "") :
    (checkContentFile fileType supportedObjects s x).dataDir = s.dataDir ∧
    (checkContentFile fileType supportedObjects s x).stateCache = s.stateCache := by
  have hS : supportedObjects.lookup x = some (s.fileSize x) := by
    simp only [keeps, decide_eq_true_eq] at hk
    exact hk.2
  simp [checkContentFile, hS, StateCache.getContentMimeType, hm, hne]

theorem foldl_checkContentFile_typed {x : ObjectId} {m : String} (hne : m ≠ "") :
    ∀ (l : List ObjectId) (s : ContentService), keeps supportedObjects s.dataDir x →
      s.stateCache.mimeTypes.lookup x = some m →
      (l.foldl (checkContentFile fileType supportedObjects) s).stateCache.mimeTypes.lookup x =
        some m
  | [], _, _, hm => hm
  | a :: l, s, hk, hm => by
    rw [List.foldl_cons]
    by_cases hxa : x = a
    · subst hxa
      obtain ⟨hd, hc⟩ := checkContentFile_typed fileType supportedObjects s hk hm hne
      exact foldl_checkContentFile_typed hne l _ (hd ▸ hk) (hc ▸ hm)
    · obtain ⟨hd, hc⟩ := checkContentFile_lookup_ne fileType supportedObjects s hxa
      exact foldl_checkContentFile_typed hne l _ (keeps_congr supportedObjects hd ▸ hk) (hc ▸ hm)

/-- `startupInit` keeps the non-empty MIME type of a file it keeps. -/
theorem startupInit_mimeType_of_typed (s : ContentService) {x : ObjectId} {m : String}
    (hk : keeps supportedObjects s.dataDir x) (hm : s.stateCache.mimeTypes.lookup x = some m)
    (hne : m ≠ "") :
    (startupInit fileType supportedObjects s).stateCache.mimeTypes.lookup x = some m := by
  have hx : x ∈ (s.dataDir.keys.foldl (checkContentFile fileType supportedObjects) s).dataDir := by
    rw [(checkContentFiles_spec fileType supportedObjects s).1, mem_restrict]
    exact ⟨hk, keeps_mem _ hk⟩
  rw [startupInit, (foldl_checkCacheItem _ _).2.2.2 x hx]
  exact foldl_checkContentFile_typed fileType supportedObjects hne _ s hk hm

/-- `startupInit` keeps exactly the supported files of the expected size, counts exactly their
bytes, keeps exactly their index entries, and leaves every kept file with a MIME type. -/
theorem startupInit_reconciles (s : ContentService) :
    let s' := startupInit fileType supportedObjects s
    s'.dataDir = restrict (keeps supportedObjects s.dataDir) s.dataDir ∧
    s'.contentSizeSum = s.contentSizeSum + sizeSum s'.dataDir ∧
    s'.stateCache.cached = restrict (keeps supportedObjects s.dataDir) s.stateCache.cached ∧
    ∀ x ∈ s'.dataDir, ∃ m, s'.stateCache.getContentMimeType x = some m ∧ m ≠ "" :=
  ⟨startupInit_dataDir fileType supportedObjects s,
    startupInit_contentSizeSum fileType supportedObjects s,
    startupInit_cached fileType supportedObjects s, startupInit_mimeType fileType supportedObjects s⟩

end ContentService

end Joystream
