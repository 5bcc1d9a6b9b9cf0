import Joystream.Store

/-!
# The `leaderSetup` test flow

`leaderSetup(api, env, db, group)` hires a lead for the working group `group` through the hiring
fixture, with a fresh key pair, and records it in the test database with
`db.setLeader(leadKeyPair[0], getWorkingGroupString(group))`. It returns at once when the
database already records a leader; but the leader it asks about is the storage working
group's, `db.hasLeader(getWorkingGroupString(StorageWorkingGroup))`, whatever `group` is.

**Theorem (`leaderSetup_hires`).** Run the flow for any list of groups, from a database that
records no storage leader: it hires one lead for each call up to the first call for the storage
group, that call included, and none after. So a group other than the storage group is hired
again at each of its calls before that one, although the database records its lead each time,
and never after it.
-/

namespace Joystream

/-- Modelled from its use: `DbService`, the test database, as the key of the lead it records for
each working group's string. -/
structure DbService where
  leaders : Table Nat

namespace DbService

/-- Modelled from its use. -/
def hasLeader (db : DbService) (group : String) : Bool := group ∈ db.leaders

/-- Modelled from its use. -/
def setLeader (db : DbService) (lead : Nat) (group : String) : DbService :=
  ⟨db.leaders.insert group lead⟩

end DbService

/-- What runs of `leaderSetup` read and change: the test database, the leads the hiring fixture
has hired on chain (the group's string and the lead's key pair, in order), and how many key
pairs `Utils.createKeyPairs` has made. -/
structure FlowState where
  db : DbService
  hired : List (String × Nat)
  keyPairs : Nat

/-- `leaderSetup`, where `storageGroup` is `getWorkingGroupString(StorageWorkingGroup)` and
`group` is `getWorkingGroupString(group)`; the hiring fixture succeeds, and hires the fresh key
pair as the group's lead. -/
def leaderSetup (storageGroup : String) (s : FlowState) (group : String) : FlowState :=
  if s.db.hasLeader storageGroup then s
  else
    let leadKeyPair := s.keyPairs
    { db := s.db.setLeader leadKeyPair group
      hired := s.hired ++ [(group, leadKeyPair)]
      keyPairs := s.keyPairs + 1 }

/-- `leaderSetup` for each group of a list, one call after the other. -/
def runLeaderSetups (storageGroup : String) (s : FlowState) (groups : List String) : FlowState :=
  groups.foldl (leaderSetup storageGroup) s

variable {storageGroup : String}

theorem runLeaderSetups_of_hasLeader {s : FlowState} (h : s.db.hasLeader storageGroup = true) :
    ∀ groups, runLeaderSetups storageGroup s groups = s
  | [] => rfl
  | g :: gs => by
    rw [runLeaderSetups, List.foldl_cons, leaderSetup, if_pos h]
    exact runLeaderSetups_of_hasLeader h gs

theorem runLeaderSetups_cons (s : FlowState) (g : String) (gs : List String) :
    runLeaderSetups storageGroup s (g :: gs) =
      runLeaderSetups storageGroup (leaderSetup storageGroup s g) gs := rfl

theorem runLeaderSetups_hired (s : FlowState) :
    ∀ groups, ∃ l, (runLeaderSetups storageGroup s groups).hired = s.hired ++ l
  | [] => ⟨[], (List.append_nil _).symm⟩
  | g :: gs => by
    obtain ⟨l, hl⟩ := runLeaderSetups_hired (leaderSetup storageGroup s g) gs
    have hg : ∃ l', (leaderSetup storageGroup s g).hired = s.hired ++ l' := by
      unfold leaderSetup
      split_ifs
      · exact ⟨[], (List.append_nil _).symm⟩
      · exact ⟨_, rfl⟩
    obtain ⟨l', hl'⟩ := hg
    exact ⟨l' ++ l, by rw [runLeaderSetups_cons, hl, hl', List.append_assoc]⟩

/-- From a database with no storage leader, the flow hires one lead for each call up to the
first call for the storage group, that call included, and none after. -/
theorem leaderSetup_hires (s : FlowState) (hs : s.db.hasLeader storageGroup = false)
    (groups : List String) :
    ((runLeaderSetups storageGroup s groups).hired.drop s.hired.length).map Prod.fst =
      groups.takeWhile (fun g => g ≠ storageGroup) ++
        if storageGroup ∈ groups then [storageGroup] else [] := by
  induction groups generalizing s with
  | nil => simp [runLeaderSetups]
  | cons g gs ih =>
    have hstep : leaderSetup storageGroup s g =
        ⟨s.db.setLeader s.keyPairs g, s.hired ++ [(g, s.keyPairs)], s.keyPairs + 1⟩ := by
      rw [leaderSetup, if_neg (by simp [hs])]
    obtain ⟨l, hl⟩ := @runLeaderSetups_hired storageGroup (leaderSetup storageGroup s g) gs
    rw [runLeaderSetups_cons, hl, hstep, List.append_assoc, List.drop_left, List.singleton_append]
    by_cases hg : g = storageGroup
    · subst hg
      have hhas : (s.db.setLeader s.keyPairs g).hasLeader g = true := by
        simp [DbService.setLeader, DbService.hasLeader]
      rw [hstep, runLeaderSetups_of_hasLeader hhas] at hl
      simp at hl
      simp [hl]
    · have hhas : (s.db.setLeader s.keyPairs g).hasLeader storageGroup = false := by
        simpa [DbService.setLeader, DbService.hasLeader, Ne.symm hg] using hs
      have := ih ⟨s.db.setLeader s.keyPairs g, s.hired ++ [(g, s.keyPairs)], s.keyPairs + 1⟩ hhas
      rw [← hstep, hl, hstep, List.drop_left] at this
      simp [hg, this, Ne.symm hg]

theorem leaderSetup_hires_content_twice :
    (⟨⟨∅⟩, [], 0⟩ : FlowState).db.hasLeader "storageWorkingGroup" = false ∧
    ((runLeaderSetups "storageWorkingGroup" ⟨⟨∅⟩, [], 0⟩
        ["contentWorkingGroup", "contentWorkingGroup", "storageWorkingGroup",
          "contentWorkingGroup"]).hired.drop (⟨⟨∅⟩, [], 0⟩ : FlowState).hired.length).map
        Prod.fst =
      ["contentWorkingGroup", "contentWorkingGroup", "storageWorkingGroup",
        "contentWorkingGroup"].takeWhile (fun g => g ≠ "storageWorkingGroup") ++
        if "storageWorkingGroup" ∈ ["contentWorkingGroup", "contentWorkingGroup",
          "storageWorkingGroup", "contentWorkingGroup"] then ["storageWorkingGroup"] else [] :=
  ⟨by decide, @leaderSetup_hires "storageWorkingGroup" ⟨⟨∅⟩, [], 0⟩ (by decide) _⟩

/-- The content group is hired twice, then the storage group, then nothing more. -/
example : ((runLeaderSetups "storageWorkingGroup" ⟨⟨∅⟩, [], 0⟩
    ["contentWorkingGroup", "contentWorkingGroup", "storageWorkingGroup",
      "contentWorkingGroup"]).hired) =
    [("contentWorkingGroup", 0), ("contentWorkingGroup", 1), ("storageWorkingGroup", 2)] := by
  decide

end Joystream
