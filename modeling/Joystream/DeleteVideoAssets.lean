import Mathlib

/-!
# `DeleteVideoAssetsAsModeratorCommand`

The command looks up each requested asset id among the video's data objects, which the query
node lists; an id that is not one of them ends the command with an error, before anything is
shown or sent. It then shows the sum of the found objects' state bloat bonds, one bond per
requested id, and, once confirmed, sends `createType('BTreeSet<u64>', ids.map(Number))`.
`createType` makes one `u64` per value, which throws for a number above
`Number.MAX_SAFE_INTEGER`, and keeps the values in ascending order, repeated values included;
when it throws, nothing is sent.

**Theorem (`run_sends_requested`).** When the requested ids are distinct data objects of the
video, all below `2 ^ 53`, the command shows the sum of their bonds, each counted once, and sends
each of their ids once.

**Theorem (`run_of_not_associated`).** When a requested id is not a data object of the video,
the command stops with the error naming the first such id, and sends nothing.

**Theorem (`run_repeated_id_bond`).** A repeated id is found, and its bond added, once per
repetition: for a video whose one data object has a bond of 5, requesting its id twice shows 10.

**Theorem (`run_large_id_sends_nothing`).** When one of the requested data objects has an id of
`2 ^ 53` or more, `Number` gives a value above `Number.MAX_SAFE_INTEGER`, `createType` throws after
the bond is shown, and nothing is sent.
-/

namespace Joystream

/-- A data object as the query node lists it: its id, a `u64` the query node gives as its
decimal string, and its state bloat bond. -/
structure DataObject where
  id : Nat
  stateBloatBond : Nat
  deriving DecidableEq, Repr

/-! ## `Number` and `createType` -/

/-- The spacing of doubles at `n`: `1` below `2 ^ 53`, and twice the spacing at `n / 2` from
there on, so `2 ^ (k - 52)` between `2 ^ k` and `2 ^ (k + 1)`. The first argument only bounds the
halvings. -/
def ulp : Nat → Nat → Nat
  | 0, _ => 1
  | fuel + 1, n => if n < 2 ^ 53 then 1 else 2 * ulp fuel (n / 2)

/-- `Number(id)` for the decimal string of `n`: the double nearest `n`, ties to even. -/
def Number (n : Nat) : Nat :=
  if n < 2 ^ 53 then n
  else
    let u := ulp n n
    let q := n / u
    let r := n % u
    if 2 * r < u ∨ (2 * r = u ∧ q % 2 = 0) then q * u else (q + 1) * u

/-- Above `2 ^ 53` doubles are two apart; a tie goes to the even multiple. -/
example : Number (2 ^ 53 + 3) = 2 ^ 53 + 4 := by decide

/-- `Number.MAX_SAFE_INTEGER`. -/
def MAX_SAFE_INTEGER : Nat := 2 ^ 53 - 1

/-- `createType('BTreeSet<u64>', values)` for JavaScript numbers: each value becomes a `u64`,
which throws (`none`) for a number above `Number.MAX_SAFE_INTEGER`; the set keeps one `u64` per
value, repeated values included, in ascending order. -/
def createBTreeSetU64 (values : List Nat) : Option (List Nat) :=
  if values.all (· ≤ MAX_SAFE_INTEGER) then some values.mergeSort else none

theorem Number_of_lt {n : Nat} (h : n < 2 ^ 53) : Number n = n := by
  rw [Number, if_pos h]

theorem ulp_of_lt {m : Nat} (h : m < 2 ^ 53) : ∀ fuel, ulp fuel m = 1
  | 0 => rfl
  | _ + 1 => by rw [ulp, if_pos h]

/-- Rounding down to a multiple of the spacing never falls below `2 ^ 53`. -/
theorem le_div_mul_ulp : ∀ (fuel n : Nat), 2 ^ 53 ≤ n → 2 ^ 53 ≤ n / ulp fuel n * ulp fuel n
  | 0, n, h => by simpa [ulp] using h
  | fuel + 1, n, h => by
    rw [ulp, if_neg (by omega), ← Nat.div_div_eq_div_mul]
    have hmul : n / 2 / ulp fuel (n / 2) * (2 * ulp fuel (n / 2)) =
        2 * (n / 2 / ulp fuel (n / 2) * ulp fuel (n / 2)) := by ring
    rw [hmul]
    by_cases h2 : n / 2 < 2 ^ 53
    · rw [ulp_of_lt h2, Nat.div_one, Nat.mul_one]
      omega
    · have := le_div_mul_ulp fuel (n / 2) (by omega)
      omega

theorem le_Number {n : Nat} (h : 2 ^ 53 ≤ n) : 2 ^ 53 ≤ Number n := by
  have hq := le_div_mul_ulp n n h
  simp only [Number, if_neg (Nat.not_lt.2 h)]
  split_ifs
  · exact hq
  · exact hq.trans (Nat.mul_le_mul_right _ (Nat.le_succ _))

/-- `createType` throws as soon as one value is not a safe integer. -/
theorem createBTreeSetU64_of_unsafe {values : List Nat} (h : ∃ v ∈ values, MAX_SAFE_INTEGER < v) :
    createBTreeSetU64 values = none := by
  simpa [createBTreeSetU64, List.all_eq_true] using h

/-- Safe distinct values: the set sent holds each of them once. -/
theorem createBTreeSetU64_of_safe {values : List Nat} (h : ∀ v ∈ values, v ≤ MAX_SAFE_INTEGER)
    (hnd : values.Nodup) :
    ∃ sent, createBTreeSetU64 values = some sent ∧ sent.Nodup ∧ sent.toFinset = values.toFinset := by
  have hperm := List.mergeSort_perm values fun a b => decide (a ≤ b)
  refine ⟨values.mergeSort, ?_, hperm.nodup_iff.2 hnd, List.toFinset_eq_of_perm _ _ hperm⟩
  rw [createBTreeSetU64, if_pos (by simpa using h)]

namespace DeleteVideoAssetsAsModeratorCommand

/-- `getDataObjectsInfo`, once `dataObjectsByVideoId` has returned `dataObjects`: the id and
the bond of the data object each requested id names, or the error of the first id none names. -/
def getDataObjectsInfo (videoId : Nat) (dataObjects : List DataObject) (assetIds : List String) :
    Except String (List (Nat × Nat)) :=
  assetIds.mapM fun id =>
    match dataObjects.find? (fun o => toString o.id == id) with
    | some dataObject => .ok (dataObject.id, dataObject.stateBloatBond)
    | none => .error ("Data object " ++ id ++ " is not associated with video " ++ toString videoId)

/-- `run`, once confirmed: the state bloat bond it shows, then the `BTreeSet<u64>` it sends, or
`none` when `createType` throws and nothing is sent; an error means nothing is shown or sent. -/
def run (videoId : Nat) (dataObjects : List DataObject) (assetIds : List String) :
    Except String (Nat × Option (List Nat)) := do
  let dataObjectsInfo ← getDataObjectsInfo videoId dataObjects assetIds
  let stateBloatBond := dataObjectsInfo.foldl (fun sum p => sum + p.2) 0
  pure (stateBloatBond, createBTreeSetU64 (dataObjectsInfo.map fun p => Number p.1))

/-! ## Looking the ids up -/

variable {videoId : Nat} {dataObjects : List DataObject}

/-- An id of the video's data objects names the object it is the id of, when no two objects
share an id. -/
theorem find_associated {o : DataObject} (ho : o ∈ dataObjects)
    (hids : (dataObjects.map fun o => toString o.id).Nodup) :
    dataObjects.find? (fun o' => toString o'.id == toString o.id) = some o := by
  obtain ⟨o', h'⟩ := Option.isSome_iff_exists.1
    ((List.find?_isSome (p := fun o' => toString o'.id == toString o.id)).2 ⟨o, ho, by simp⟩)
  have hid : toString o'.id = toString o.id := by simpa using List.find?_some h'
  rw [h', List.inj_on_of_nodup_map hids (List.mem_of_find?_eq_some h') ho hid]

theorem getDataObjectsInfo_associated {objs : List DataObject}
    (hobj : ∀ o ∈ objs, o ∈ dataObjects) (hids : (dataObjects.map fun o => toString o.id).Nodup) :
    getDataObjectsInfo videoId dataObjects (objs.map fun o => toString o.id) =
      .ok (objs.map fun o => (o.id, o.stateBloatBond)) := by
  induction objs with
  | nil => rfl
  | cons o objs ih =>
    have ih := ih fun o' h => hobj o' (List.mem_cons_of_mem o h)
    simp only [getDataObjectsInfo, List.map_cons, List.mapM_cons,
      find_associated (hobj o (List.mem_cons_self o objs)) hids] at ih ⊢
    rw [ih]
    rfl

theorem foldl_add_snd (l : List (Nat × Nat)) (a : Nat) :
    l.foldl (fun sum p => sum + p.2) a = a + (l.map Prod.snd).sum := by
  induction l generalizing a with
  | nil => simp
  | cons p l ih => simp [ih, Nat.add_assoc]

/-- For ids of the video's data objects, in any number and order: the bond of each requested id,
summed, and `createType` of their ids, each through `Number`. -/
theorem run_of_associated {objs : List DataObject} (hobj : ∀ o ∈ objs, o ∈ dataObjects)
    (hids : (dataObjects.map fun o => toString o.id).Nodup) :
    run videoId dataObjects (objs.map fun o => toString o.id) =
      .ok ((objs.map DataObject.stateBloatBond).sum,
        createBTreeSetU64 (objs.map fun o => Number o.id)) := by
  rw [run, getDataObjectsInfo_associated hobj hids]
  simp only [bind, Except.bind, pure, Except.pure, foldl_add_snd, List.map_map, Nat.zero_add]
  rfl

/-- Distinct ids of the video's data objects, all below `2 ^ 53`: the bond shown counts each
object once, and the set sent holds each requested id once. -/
theorem run_sends_requested {objs : List DataObject} (hobj : ∀ o ∈ objs, o ∈ dataObjects)
    (hids : (dataObjects.map fun o => toString o.id).Nodup)
    (hnd : (objs.map fun o => toString o.id).Nodup) (hsmall : ∀ o ∈ objs, o.id < 2 ^ 53) :
    ∃ sent, run videoId dataObjects (objs.map fun o => toString o.id) =
        .ok (∑ o ∈ objs.toFinset, o.stateBloatBond, some sent) ∧
      sent.Nodup ∧ sent.toFinset = objs.toFinset.image DataObject.id := by
  have hnum : (objs.map fun o => Number o.id) = objs.map DataObject.id :=
    List.map_congr_left fun o ho => Number_of_lt (hsmall o ho)
  have hnd' : (objs.map DataObject.id).Nodup :=
    (show ((objs.map DataObject.id).map toString).Nodup by rwa [List.map_map]).of_map toString
  obtain ⟨sent, hsent, hsnd, hset⟩ := createBTreeSetU64_of_safe
    (fun v hv => by
      obtain ⟨o, ho, rfl⟩ := List.mem_map.1 hv
      have := hsmall o ho
      simp only [MAX_SAFE_INTEGER]
      omega) hnd'
  refine ⟨sent, ?_, hsnd, by rw [hset]; ext x; simp⟩
  rw [run_of_associated hobj hids, hnum, hsent, List.sum_toFinset _ hnd.of_map]

theorem run_sends_requested_two :
    ∑ o ∈ ([⟨1, 5⟩, ⟨2, 7⟩] : List DataObject).toFinset, o.stateBloatBond = 12 ∧
    ∃ sent, run 4 [⟨1, 5⟩, ⟨2, 7⟩, ⟨3, 9⟩]
        (([⟨1, 5⟩, ⟨2, 7⟩] : List DataObject).map fun o => toString o.id) =
        .ok (∑ o ∈ ([⟨1, 5⟩, ⟨2, 7⟩] : List DataObject).toFinset, o.stateBloatBond, some sent) ∧
      sent.Nodup ∧ sent.toFinset = ([⟨1, 5⟩, ⟨2, 7⟩] : List DataObject).toFinset.image DataObject.id :=
  ⟨by decide, run_sends_requested (by decide) (by decide) (by decide) (by decide)⟩

/-- A repeated id adds its bond once per repetition to what is shown: the video's one data
object has a bond of 5, and 10 is shown. -/
theorem run_repeated_id_bond :
    (run 1 [⟨1, 5⟩] ["1", "1"]).toOption.map Prod.fst = some 10 ∧
      ∑ o ∈ ([⟨1, 5⟩] : List DataObject).toFinset, o.stateBloatBond = 5 := by
  decide

/-- An id of `2 ^ 53` or more among the requested data objects: the bond is shown, then
`createType` throws and nothing is sent. -/
theorem run_large_id_sends_nothing {objs : List DataObject} (hobj : ∀ o ∈ objs, o ∈ dataObjects)
    (hids : (dataObjects.map fun o => toString o.id).Nodup) (hlarge : ∃ o ∈ objs, 2 ^ 53 ≤ o.id) :
    run videoId dataObjects (objs.map fun o => toString o.id) =
      .ok ((objs.map DataObject.stateBloatBond).sum, none) := by
  obtain ⟨o, ho, hbig⟩ := hlarge
  have hunsafe : MAX_SAFE_INTEGER < Number o.id := by
    have := le_Number hbig
    simp only [MAX_SAFE_INTEGER]
    omega
  rw [run_of_associated hobj hids, createBTreeSetU64_of_unsafe
    ⟨Number o.id, List.mem_map_of_mem (fun o => Number o.id) ho, hunsafe⟩]

theorem run_large_id_sends_nothing_one :
    (∀ o ∈ ([⟨2 ^ 53 + 1, 5⟩] : List DataObject), o ∈ ([⟨2 ^ 53 + 1, 5⟩] : List DataObject)) ∧
    (([⟨2 ^ 53 + 1, 5⟩] : List DataObject).map fun o => toString o.id).Nodup ∧
    (∃ o ∈ ([⟨2 ^ 53 + 1, 5⟩] : List DataObject), 2 ^ 53 ≤ o.id) ∧
    run 1 [⟨2 ^ 53 + 1, 5⟩] (([⟨2 ^ 53 + 1, 5⟩] : List DataObject).map fun o => toString o.id) =
      .ok ((([⟨2 ^ 53 + 1, 5⟩] : List DataObject).map DataObject.stateBloatBond).sum, none) :=
  have hlarge : ∃ o ∈ ([⟨2 ^ 53 + 1, 5⟩] : List DataObject), 2 ^ 53 ≤ o.id :=
    ⟨_, List.mem_singleton_self _, Nat.le_succ _⟩
  ⟨fun _ h => h, List.nodup_singleton _, hlarge,
    run_large_id_sends_nothing (fun _ h => h) (List.nodup_singleton _) hlarge⟩

/-! ## An id that is not the video's -/

/-- The first requested id that names none of the video's data objects stops the command with
its error; nothing is sent. -/
theorem run_of_not_associated {pre : List DataObject} (hpre : ∀ o ∈ pre, o ∈ dataObjects)
    (id : String) (post : List String) (hid : ∀ o ∈ dataObjects, toString o.id ≠ id) :
    run videoId dataObjects (pre.map (fun o => toString o.id) ++ id :: post) =
      .error ("Data object " ++ id ++ " is not associated with video " ++ toString videoId) := by
  suffices getDataObjectsInfo videoId dataObjects (pre.map (fun o => toString o.id) ++ id :: post) =
      .error ("Data object " ++ id ++ " is not associated with video " ++ toString videoId) by
    rw [run, this]; rfl
  induction pre with
  | nil =>
    have : dataObjects.find? (fun o => toString o.id == id) = none :=
      List.find?_eq_none.2 fun o ho => by simpa using hid o ho
    simp only [getDataObjectsInfo, List.map_nil, List.nil_append, List.mapM_cons, this]
    rfl
  | cons o pre ih =>
    have ih := ih fun o' h => hpre o' (List.mem_cons_of_mem o h)
    obtain ⟨o', h'⟩ := Option.isSome_iff_exists.1
      ((List.find?_isSome (p := fun o' => toString o'.id == toString o.id)).2
        ⟨o, hpre o (List.mem_cons_self o pre), by simp⟩)
    simp only [getDataObjectsInfo, List.map_cons, List.cons_append, List.mapM_cons, h'] at ih ⊢
    rw [ih]
    rfl

theorem run_of_not_associated_missing :
    run 4 [⟨1, 5⟩] (([⟨1, 5⟩] : List DataObject).map (fun o => toString o.id) ++ "2" :: ["1"]) =
      .error ("Data object " ++ "2" ++ " is not associated with video " ++ toString 4) :=
  run_of_not_associated (by decide) "2" ["1"] (by decide)

end DeleteVideoAssetsAsModeratorCommand

end Joystream
