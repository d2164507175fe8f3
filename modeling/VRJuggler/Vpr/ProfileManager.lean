import VRJuggler.Vpr.ProfileCalls

/-!
# The profile tree follows the call tree

The tree of nodes simulates the profile of the calls, so that nested calls are followed by the
nodes exactly when they are followed by the profile.
-/
namespace VRJuggler.Vpr

open ThreadProfileData

variable {ν : Type} [DecidableEq ν]

/-! ## The tree simulates the profile -/

/-- The numbers at the paths of a tree. -/
structure Views (s : ThreadProfileData ν) (a : Profile ν) : Prop where
  current : s.mCurrentNode = a.current.bind s.nodeAt
  located : ∀ path, a.current = some path → (s.nodeAt path).isSome
  totals : ∀ path, s.totalAt path = a.totalCalls path
  counters : ∀ path, s.counterAt path = a.counter path

/-- A node that has a path keeps it. -/
def Grows (s s' : ThreadProfileData ν) : Prop :=
  ∀ path i, s.nodeAt path = some i → s'.nodeAt path = some i

section Simulation

variable {root : ν} {s : ThreadProfileData ν} {a : Profile ν}

/-- The current node and its path. -/
theorem Views.cases (views : Views s a) : (s.mCurrentNode = none ∧ a.current = none) ∨
    ∃ path i, a.current = some path ∧ s.nodeAt path = some i ∧ s.mCurrentNode = some i := by
  have current := views.current
  cases here : a.current with
  | none => exact .inl ⟨by rw [current, here]; rfl, rfl⟩
  | some path =>
    obtain ⟨i, found⟩ := Option.isSome_iff_exists.mp (views.located path here)
    exact .inr ⟨path, i, rfl, found, by rw [current, here, Option.bind_some, found]⟩

/-- The numbers of the node at a path. -/
theorem Views.node (views : Views s a) {path : List ν} {i : Nat}
    (found : s.nodeAt path = some i) : (s.nodes i).mTotalCalls = a.totalCalls path ∧
      (s.nodes i).mRecursionCounter = a.counter path := by
  have total := views.totals path
  have counter := views.counters path
  simp only [totalAt, counterAt, found] at total counter
  exact ⟨total, counter⟩

/-- The data in which a call starts its sample: the node is found or made. -/
def entered (s : ThreadProfileData ν) (current : Nat) (name : ν) (queueSize : Nat) :
    ThreadProfileData ν × Nat :=
  if name ≠ (s.nodes current).mName then s.getSubNode current name queueSize else (s, current)

theorem entered_spec (tree : s.Tree root) (views : Views s a) {path : List ν} {i : Nat}
    (found : s.nodeAt path = some i) (name : ν) (queueSize : Nat) :
    ∃ s' j, entered s i name queueSize = (s', j) ∧ s'.Tree root ∧
      s'.nodeAt (enter root name path) = some j ∧ Grows s s' ∧
      (∀ q, s'.totalAt q = a.totalCalls q) ∧ ∀ q, s'.counterAt q = a.counter q := by
  have inside := tree.nodeAt_lt found
  rw [entered, tree.name_of_nodeAt found, enter]
  by_cases same : name = path.headD root
  · rw [if_neg (not_not.mpr same), if_pos same]
    exact ⟨s, i, rfl, tree, found, fun _ _ known => known, views.totals, views.counters⟩
  · rw [if_pos same, if_neg same, getSubNode]
    cases fresh : s.getChild i name with
    | some child =>
      refine ⟨s, child, rfl, tree, ?_, fun _ _ known => known, views.totals, views.counters⟩
      rw [nodeAt, found, Option.bind_some, fresh]
    | none =>
      have moved := nodeAt_grown tree found fresh queueSize
      have numbers := at_grown tree found fresh queueSize
      refine ⟨_, _, rfl, tree_grown tree inside fresh, ?_, ?_, ?_, ?_⟩
      · exact (moved _).trans (if_pos rfl)
      · intro q j known
        refine (moved q).trans ?_
        by_cases new : q = name :: path
        · rw [new, nodeAt, found, Option.bind_some, fresh] at known
          cases known
        · rw [if_neg new, known]
      · exact fun q => (numbers q).1.trans (views.totals q)
      · exact fun q => (numbers q).2.trans (views.counters q)

/-- A sample changes the numbers of a node and nothing else of the tree. -/
theorem views_setNode (tree : s.Tree root) {path : List ν} {i : Nat}
    (found : s.nodeAt path = some i) {node : ProfileNode ν} {current : Option Nat}
    (place : Option (List ν)) (alike : Alike s { s.setNode i node with mCurrentNode := current })
    (totals : ∀ q, s.totalAt q = a.totalCalls q) (counters : ∀ q, s.counterAt q = a.counter q)
    (there : current = place.bind s.nodeAt) (located : ∀ q, place = some q → (s.nodeAt q).isSome)
    {total : BitVec 32} {counter : Int} (calls : node.mTotalCalls = total)
    (recursion : node.mRecursionCounter = counter) :
    let after := { s.setNode i node with mCurrentNode := current }
    after.Tree root ∧ Grows s after ∧ Views after {
      current := place
      totalCalls := Function.update a.totalCalls path total
      counter := Function.update a.counter path counter } := by
  intro after
  subst calls recursion
  have same := alike.nodeAt
  have numbers := at_setNode tree found alike
  refine ⟨alike.tree tree, fun q j known => (same q).trans known, ?_, ?_, ?_, ?_⟩
  · cases place with
    | none => exact there
    | some q => exact there.trans (same q).symm
  · intro q here
    rw [same q]
    exact located q here
  · intro q
    refine (numbers q).1.trans ?_
    rw [totals]
    exact (Function.update_apply ..).symm
  · intro q
    refine (numbers q).2.trans ?_
    rw [counters]
    exact (Function.update_apply ..).symm

/-- A tree of nodes that grew out of another, and the profile that it shows. -/
structure Simulates (root : ν) (before s : ThreadProfileData ν) (a : Profile ν) : Prop where
  tree : s.Tree root
  grows : Grows before s
  views : Views s a

theorem simulated_start (tree : s.Tree root) (views : Views s a) (name : ν) (queueSize : Nat)
    (now : BitVec 64) :
    Option.Rel (Simulates root s) (s.startProfile name queueSize now) (a.start root name) := by
  rcases views.cases with ⟨here, there⟩ | ⟨path, i, there, found, here⟩
  · rw [startProfile, here, Profile.start, there]
    exact .none
  · obtain ⟨s', j, entered', tree', found', grows, totals, counters⟩ :=
      entered_spec tree views found name queueSize
    have counter : (s'.nodes j).mRecursionCounter = a.counter (enter root name path) := by
      have at' := counters (enter root name path)
      rwa [counterAt, found'] at at'
    have total : (s'.nodes j).mTotalCalls = a.totalCalls (enter root name path) := by
      have at' := totals (enter root name path)
      rwa [totalAt, found'] at at'
    have started : s.startProfile name queueSize now =
        ((s'.nodes j).startSample now).map fun node =>
          { s'.setNode j node with mCurrentNode := some j } := by
      simp only [startProfile, here]
      rw [show (if name ≠ (s.nodes i).mName then s.getSubNode i name queueSize else (s, i)) =
        (s', j) from entered']
      cases (s'.nodes j).startSample now <;> rfl
    rw [started, Profile.start, there, ProfileNode.startSample, counter]
    by_cases full : a.counter (enter root name path) = maxInt
    · simp only [if_pos full]
      exact .none
    · simp only [if_neg full, Option.map_some]
      let node := { s'.nodes j with
        mTotalCalls := (s'.nodes j).mTotalCalls + 1
        mStartTime := if a.counter (enter root name path) = 0 then now
          else (s'.nodes j).mStartTime
        mRecursionCounter := a.counter (enter root name path) + 1 }
      have alike : Alike s' { s'.setNode j node with mCurrentNode := some j } :=
        alike_setNode (some j) rfl rfl rfl
      obtain ⟨tree'', grows', views'⟩ := views_setNode tree' found'
        (some (enter root name path)) alike totals counters (by rw [Option.bind_some, found'])
        (fun q same => by rw [← Option.some.inj same, found']; rfl)
        (congrArg (· + 1) total) rfl
      exact .some ⟨tree'', fun q k known => grows' q k (grows q k known), views'⟩

theorem simulated_stop (tree : s.Tree root) (views : Views s a) (now : BitVec 64) :
    Option.Rel (Simulates root s) (s.stopProfile now) a.stop := by
  rcases views.cases with ⟨here, there⟩ | ⟨path, i, there, found, here⟩
  · rw [stopProfile, here, Profile.stop, there]
    exact .none
  · obtain ⟨total, counter⟩ := views.node found
    -- the parent is the node at the rest of the path
    have up : (s.nodes i).mParent = path.tail?.bind s.nodeAt := by
      cases path with
      | nil =>
        obtain rfl := Option.some.inj found
        exact tree.root_parent
      | cons name path =>
        obtain ⟨parent, above, _, back, _⟩ := tree.nodeAt_cons found
        exact back.trans above.symm
    -- which is a node, as the tree is closed under parents
    have above : ∀ q, path.tail? = some q → (s.nodeAt q).isSome := by
      intro q rest
      cases path with
      | nil => cases rest
      | cons name path =>
        obtain rfl := Option.some.inj rest
        obtain ⟨parent, above, _⟩ := tree.nodeAt_cons found
        rw [above]
        rfl
    rw [stopProfile, here, Profile.stop, there]
    -- at the least number the counter cannot be decremented
    by_cases least : a.counter path = - maxInt - 1
    · simp only [ProfileNode.stopSample, counter, if_pos least]
      exact .none
    · obtain ⟨node, stopped, name, parent, children, calls, recursion⟩ :=
        (s.nodes i).stopSample_spec now (counter ▸ least)
      rw [counter] at stopped recursion
      simp only [stopped, if_neg least, decide_eq_true_eq]
      -- the current node goes up when the sample is over
      let place := if a.counter path - 1 = 0 then path.tail? else some path
      have target : (if a.counter path - 1 = 0 then node.mParent else some i) =
          place.bind s.nodeAt := by
        by_cases back : a.counter path - 1 = 0
        · simp only [place, if_pos back, parent, up]
        · simp only [place, if_neg back, Option.bind_some, found]
      have located : ∀ q, place = some q → (s.nodeAt q).isSome := by
        intro q same
        by_cases back : a.counter path - 1 = 0
        · exact above q (by simpa only [place, if_pos back] using same)
        · simp only [place, if_neg back] at same
          rw [← Option.some.inj same, found]
          rfl
      obtain ⟨tree', grows, views'⟩ := views_setNode tree found place
        (alike_setNode _ name parent children) views.totals views.counters target located
        (calls.trans total) recursion
      rw [Function.update_eq_self] at views'
      exact .some ⟨tree', grows, views'⟩

/-- Every step of the tree is one of the profile. -/
theorem simulated_step (tree : s.Tree root) (views : Views s a) (c : ProfileCall ν) :
    Option.Rel (Simulates root s) (s.step c) (a.step root c) := by
  cases c with
  | startProfile name queueSize now => exact simulated_start tree views name queueSize now
  | stopProfile now => exact simulated_stop tree views now

theorem simulates_step {before : ThreadProfileData ν} (sim : Simulates root before s a)
    (c : ProfileCall ν) : Option.Rel (Simulates root before) (s.step c) (a.step root c) := by
  have next := simulated_step sim.tree sim.views c
  generalize s.step c = after, a.step root c = after' at next
  cases next with
  | none => exact .none
  | some later =>
    exact .some ⟨later.tree, fun q i known => later.grows q i (sim.grows q i known), later.views⟩

/-- What is reached by a run of the tree. -/
theorem simulates_run {before s' : ThreadProfileData ν} {calls : List (ProfileCall ν)}
    (sim : Simulates root before s a) (reached : run ThreadProfileData.step s calls = some s') :
    ∃ a', run (Profile.step root) a calls = some a' ∧ Simulates root before s' a' := by
  have runs := run_rel (fun _ _ c sim => simulates_step sim c) sim calls
  rw [reached] at runs
  generalize run (Profile.step root) a calls = after at runs
  cases runs with
  | some sim' => exact ⟨_, rfl, sim'⟩

/-- What is reached by a run of the profile. -/
theorem simulates_run_profile {before : ThreadProfileData ν} {a' : Profile ν}
    {calls : List (ProfileCall ν)} (sim : Simulates root before s a)
    (reached : run (Profile.step root) a calls = some a') :
    ∃ s', run ThreadProfileData.step s calls = some s' ∧ Simulates root before s' a' := by
  have runs := run_rel (fun _ _ c sim => simulates_step sim c) sim calls
  rw [reached] at runs
  generalize run ThreadProfileData.step s calls = after at runs
  cases runs with
  | some sim' => exact ⟨_, rfl, sim'⟩

end Simulation

/-! ## Runs -/

namespace ThreadProfileData

/-- A start is not made by the name of the current node while that has no sample. -/
def Safe (s : ThreadProfileData ν) : ProfileCall ν → Prop
  | .startProfile name _ _ => ∀ i, s.mCurrentNode = some i → name = (s.nodes i).mName →
      (s.nodes i).mRecursionCounter ≠ 0 ∧ (s.nodes i).mRecursionCounter ≠ maxInt
  | .stopProfile _ => True

/-- What nested calls, made from the node at the path, should do to the tree. -/
structure Follows (root : ν) (path : List ν) (calls : Calls ν) (s s' : ThreadProfileData ν) :
    Prop where
  current : s'.mCurrentNode = s.mCurrentNode
  counters : ∀ q, s'.counterAt q = s.counterAt q
  totals : ∀ q, (s'.totalAt q).toNat = (s.totalAt q).toNat + calls.callsAt root q path
  kept : Grows s s'
  paths : ∀ i < s'.count, ∃ q, s'.nodeAt q = some i
  siblings : ∀ i < s'.count,
    ((s'.nodes i).children.map fun child => (s'.nodes child).mName).Nodup

end ThreadProfileData

section Runs

variable {root : ν} {s : ThreadProfileData ν} {a : Profile ν}

theorem safe_iff (tree : s.Tree root) (views : Views s a) (c : ProfileCall ν) :
    s.Safe c ↔ a.Safe root c := by
  cases c with
  | stopProfile now => exact Iff.rfl
  | startProfile name queueSize now =>
    simp only [ThreadProfileData.Safe, Profile.Safe]
    rcases views.cases with ⟨here, there⟩ | ⟨path, i, there, found, here⟩
    · simp [here, there]
    · simp [here, there, tree.name_of_nodeAt found, (views.node found).2]

theorem simulates_create (root : ν) : Simulates root (create root) (create root) {
    current := some []
    totalCalls := fun _ => 0
    counter := fun _ => 0 } where
  tree := by
    constructor <;> simp [create]
  grows := fun _ _ known => known
  views := by
    have nodes : ∀ q, (create root).totalAt q = 0 ∧ (create root).counterAt q = 0 := by
      intro q
      unfold totalAt counterAt
      cases (create root).nodeAt q <;> simp [create]
    exact ⟨rfl, fun q same => Option.some.inj same ▸ rfl, fun q => (nodes q).1,
      fun q => (nodes q).2⟩

/-- Where the profile follows the calls, the tree does, if no number of calls is too large. -/
theorem follows_iff {s' : ThreadProfileData ν} {a' : Profile ν} {path : List ν} {i : Nat}
    {calls : Calls ν} (views : Views s a) (here : s.mCurrentNode = some i)
    (there : a.current = some path) (found : s.nodeAt path = some i)
    (sim : Simulates root s s' a') (followed : Profile.Followed root path calls a a') :
    Follows root path calls s s' ↔
      ∀ q, (s.totalAt q).toNat + calls.callsAt root q path < 2 ^ 32 := by
  obtain ⟨current, counter, totals⟩ := followed
  have total : ∀ q, (s'.totalAt q).toNat =
      ((s.totalAt q).toNat + calls.callsAt root q path) % 2 ^ 32 := by
    intro q
    rw [sim.views.totals, totals, ← views.totals, BitVec.toNat_add, BitVec.toNat_ofNat,
      Nat.add_mod_mod]
  constructor
  · intro follows q
    rw [← follows.totals q]
    exact (s'.totalAt q).isLt
  · intro small
    refine ⟨?_, fun q => ?_, fun q => ?_, sim.grows, ?_, sim.tree.distinct⟩
    · rw [sim.views.current, current, there, Option.bind_some, sim.grows path i found, here]
    · rw [sim.views.counters, counter, ← views.counters]
    · rw [total, Nat.mod_eq_of_lt (small q)]
    · exact fun i inside => sim.tree.exists_nodeAt inside

/-- In every state that calls can reach, nested calls are followed by the tree exactly when none
of them starts the current node by its own name while that has no sample, which only the root
can be, and when no number becomes too large. -/
theorem profile_follows_iff (root : ν) (before : List (ProfileCall ν)) (s : ThreadProfileData ν)
    (reached : run ThreadProfileData.step (create root) before = some s) (i : Nat)
    (here : s.mCurrentNode = some i) (calls : Calls ν) :
    ∃ path, s.nodeAt path = some i ∧
      ((∃ s', run ThreadProfileData.step s calls.word = some s' ∧ Follows root path calls s s') ↔
        Attempts ThreadProfileData.step ThreadProfileData.Safe s calls.word ∧
          ∀ q, (s.totalAt q).toNat + calls.callsAt root q path < 2 ^ 32) := by
  obtain ⟨a, ran, sim⟩ := simulates_run (simulates_create root) reached
  have placed : a.Placed := by
    refine run_invariant Profile.Placed (fun _ c _ placed => Profile.placed_step c placed) ?_ ran
    refine ⟨fun _ => by simp [maxInt], ?_⟩
    rintro _ ⟨⟩ q below
    exact ⟨fun suffix => absurd (List.suffix_nil.mp suffix) below, fun _ => rfl⟩
  rcases sim.views.cases with ⟨lost, _⟩ | ⟨path, j, there, found, here'⟩
  · cases lost.symm.trans here
  obtain rfl := Option.some.inj (here'.symm.trans here)
  have self : Simulates root s s a := ⟨sim.tree, fun _ _ known => known, sim.views⟩
  have attempts : Attempts ThreadProfileData.step ThreadProfileData.Safe s calls.word ↔
      Attempts (Profile.step root) (Profile.Safe root) a calls.word :=
    attempts_rel (fun _ _ c sim => simulates_step sim c)
      (fun _ _ c sim => safe_iff sim.tree sim.views c) self _
  obtain ⟨follow, lose⟩ := Profile.followed_or_lost calls placed there
  refine ⟨path, found, ?_⟩
  rw [attempts]
  by_cases all : Attempts (Profile.step root) (Profile.Safe root) a calls.word
  · obtain ⟨a', done, followed⟩ := follow all
    obtain ⟨s', done', sim'⟩ := simulates_run_profile self done
    have iff := follows_iff sim.views here there found sim' followed
    simp [all, done', iff]
  · -- the thread has no current node at the end, if it comes there
    refine iff_of_false ?_ (fun both => all both.1)
    rintro ⟨s', done, follows⟩
    obtain ⟨a', done', sim'⟩ := simulates_run self done
    have lost := lose all a' done'
    have current := follows.current
    rw [sim'.views.current, lost, here] at current
    cases current

/-- The call tree of one call, and of the same call inside it. -/
theorem profile_follows_iff_twice : ∃ s : ThreadProfileData Bool,
    run ThreadProfileData.step (create false) [.startProfile true 0 5] = some s ∧
      s.mCurrentNode = some 1 ∧ ∃ path, s.nodeAt path = some 1 ∧
        ((∃ s', run ThreadProfileData.step s
            (Calls.call true 0 6 .none 7 .none).word = some s' ∧
              Follows false path (.call true 0 6 .none 7 .none) s s') ↔
          Attempts ThreadProfileData.step ThreadProfileData.Safe s
            (Calls.call true 0 6 .none 7 .none).word ∧
          ∀ q, (s.totalAt q).toNat + (Calls.call true 0 6 .none 7 .none).callsAt false q path <
            2 ^ 32) := by
  obtain ⟨s, reached, here⟩ : ∃ s : ThreadProfileData Bool,
      run ThreadProfileData.step (create false) [.startProfile true 0 5] = some s ∧
        s.mCurrentNode = some 1 := ⟨_, rfl, rfl⟩
  exact ⟨s, reached, here, profile_follows_iff false _ s reached 1 here _⟩

/-- A call by the name of the root, at the root, leaves no current node. -/
theorem root_call_not_followed : ¬ ∀ (calls : Calls Bool), ∃ s',
    run ThreadProfileData.step (create false) calls.word = some s' ∧
      Follows false [] calls (create false) s' := by
  intro claim
  obtain ⟨s', done, follows⟩ := claim (.call false 0 6 .none 7 .none)
  obtain rfl := Option.some.inj done
  cases follows.current

end Runs

end VRJuggler.Vpr
