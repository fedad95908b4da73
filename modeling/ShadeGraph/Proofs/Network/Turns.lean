import ShadeGraph.Proofs.Network.Order

/-!
# The turns of a walk

A walk takes the top entry off its stack at each turn: it expands the inputs of a node, lists a node,
or skips what was listed on another path. A node may lie on the stack several times, but above a node
that is to be left there are only entries that lie before it in the table. So what is to be left is
never listed on another path, and every expansion is followed by one listing.
-/

namespace ShadeGraph.Network

variable {α : Type}

/-- What a walk does with the entry on top of its stack. -/
inductive Turn where
  | skip (entry : Visit)
  | expand (id : NodeId)
  | list (id : NodeId)
deriving DecidableEq, Repr

namespace Turn

def expanded? : Turn → Option NodeId
  | expand id => some id
  | _ => none

def listed? : Turn → Option NodeId
  | list id => some id
  | _ => none

end Turn

/-- A walk on its way: its stack, and what it has listed, the latest first. -/
structure Walker where
  stack : List Visit
  seen : List NodeId := []

/-- The next turn of a walk; none behind its last one. -/
def next? (net : Network α) : Walker → Option (Turn × Walker)
  | ⟨[], _⟩ => none
  | ⟨.leave id :: stack, seen⟩ =>
    if id ∈ seen then some (.skip (.leave id), ⟨stack, seen⟩)
    else some (.list id, ⟨stack, id :: seen⟩)
  | ⟨.enter id :: stack, seen⟩ =>
    if id ∈ seen then some (.skip (.enter id), ⟨stack, seen⟩)
    else some (.expand id, ⟨(net.pending seen id).map .enter ++ .leave id :: stack, seen⟩)

/-- The walk takes these turns, one after the other. -/
inductive Takes (net : Network α) : Walker → List Turn → Walker → Prop
  | stop {w} : Takes net w [] w
  | turn {w turn next turns last} : net.next? w = some (turn, next) → Takes net next turns last →
    Takes net w (turn :: turns) last

variable {net : Network α} {w next last : Walker} {turn : Turn} {turns : List Turn}
  {id : NodeId} {stack : List Visit} {seen : List NodeId}

/-- All that a turn may do. -/
theorem next?_cases (h : net.next? w = some (turn, next)) :
    (∃ entry stack, w.stack = entry :: stack ∧ (∃ id ∈ w.seen, entry = .enter id ∨
      entry = .leave id) ∧ turn = .skip entry ∧ next = ⟨stack, w.seen⟩) ∨
    (∃ id stack, w.stack = .leave id :: stack ∧ id ∉ w.seen ∧ turn = .list id ∧
      next = ⟨stack, id :: w.seen⟩) ∨
    ∃ id stack, w.stack = .enter id :: stack ∧ id ∉ w.seen ∧ turn = .expand id ∧
      next = ⟨(net.pending w.seen id).map .enter ++ .leave id :: stack, w.seen⟩ := by
  obtain ⟨_ | ⟨id | id, stack⟩, seen⟩ := w
  · cases h
  · rw [next?] at h
    split_ifs at h with hid
    · cases h
      exact .inl ⟨_, stack, rfl, ⟨id, hid, .inl rfl⟩, rfl, rfl⟩
    · cases h
      exact .inr (.inr ⟨id, stack, rfl, hid, rfl, rfl⟩)
  · rw [next?] at h
    split_ifs at h with hid
    · cases h
      exact .inl ⟨_, stack, rfl, ⟨id, hid, .inr rfl⟩, rfl, rfl⟩
    · cases h
      exact .inr (.inl ⟨id, stack, rfl, hid, rfl, rfl⟩)

/-! ### The end of a walk -/

theorem walkFrom_leave_of_mem (h : id ∈ seen) (stack : List Visit) :
    net.walkFrom (.leave id :: stack) seen = net.walkFrom stack seen := by
  rw [walkFrom, if_pos h]

/-- Turns work off the stack. -/
theorem walkFrom_next (h : net.next? w = some (turn, next)) :
    net.walkFrom w.stack w.seen = net.walkFrom next.stack next.seen := by
  rcases next?_cases h with ⟨_, stack, hstack, ⟨id, hid, rfl | rfl⟩, -, rfl⟩ |
    ⟨id, stack, hstack, hid, -, rfl⟩ | ⟨id, stack, hstack, hid, -, rfl⟩
  · rw [hstack, walkFrom_enter_of_mem hid]
  · rw [hstack, walkFrom_leave_of_mem hid]
  · rw [hstack, walkFrom, if_neg hid]
  · rw [hstack, walkFrom, if_neg hid]

theorem Takes.walkFrom_eq (h : net.Takes w turns last) :
    net.walkFrom w.stack w.seen = net.walkFrom last.stack last.seen := by
  induction h with
  | stop => rfl
  | turn hnext _ ih => rw [walkFrom_next hnext, ih]

theorem stackSteps_next_lt (h : net.next? w = some (turn, next)) :
    net.stackSteps next.stack < net.stackSteps w.stack := by
  rcases next?_cases h with ⟨_, stack, hstack, ⟨id, hid, rfl | rfl⟩, -, rfl⟩ |
    ⟨id, stack, hstack, hid, -, rfl⟩ | ⟨id, stack, hstack, hid, -, rfl⟩
  · have hpos := net.unfoldedSize_pos id
    simp only [hstack, stackSteps]
    omega
  · simp [hstack, stackSteps]
  · simp [hstack, stackSteps]
  · rw [hstack]
    exact net.stackSteps_pending_lt w.seen id stack

theorem next?_eq_none_iff : net.next? w = none ↔ w.stack = [] := by
  obtain ⟨_ | ⟨id | id, stack⟩, seen⟩ := w
  · simp [next?]
  · rw [next?]
    split_ifs <;> simp
  · rw [next?]
    split_ifs <;> simp

/-- A walk comes to an end, with an empty stack. -/
theorem exists_takes (net : Network α) (w : Walker) :
    ∃ turns seen, net.Takes w turns ⟨[], seen⟩ := by
  induction hsteps : net.stackSteps w.stack using Nat.strong_induction_on generalizing w with
  | h n ih =>
    cases hnext : net.next? w with
    | none =>
      obtain ⟨stack, seen⟩ := w
      obtain rfl : stack = [] := next?_eq_none_iff.mp hnext
      exact ⟨[], seen, .stop⟩
    | some result =>
      obtain ⟨turn, next⟩ := result
      obtain ⟨turns, seen, htakes⟩ := ih _ (hsteps ▸ stackSteps_next_lt hnext) next rfl
      exact ⟨turn :: turns, seen, .turn hnext htakes⟩

/-! ### What is to be left -/

namespace Visit

def node : Visit → NodeId
  | enter id => id
  | leave id => id

def left? : Visit → Option NodeId
  | enter _ => none
  | leave id => some id

end Visit

/-- The nodes on the stack that are to be left. -/
def Walker.open (w : Walker) : List NodeId := w.stack.filterMap Visit.left?

/-- What is to be left is not listed, and above it there are only nodes before it. -/
structure Walker.Sound (w : Walker) : Prop where
  above : w.stack.Pairwise fun entry later => ∀ id, later = .leave id → entry.node < id
  fresh : ∀ id, .leave id ∈ w.stack → id ∉ w.seen

namespace Visit

@[simp] theorem filterMap_left?_enter (id : NodeId) (stack : List Visit) :
    (enter id :: stack).filterMap left? = stack.filterMap left? := rfl

@[simp] theorem filterMap_left?_leave (id : NodeId) (stack : List Visit) :
    (leave id :: stack).filterMap left? = id :: stack.filterMap left? := rfl

theorem filterMap_left?_map_enter (ids : List NodeId) : (ids.map enter).filterMap left? = [] :=
  List.filterMap_eq_nil_iff.mpr fun _ hentry => by
    obtain ⟨_, -, rfl⟩ := List.mem_map.mp hentry
    rfl

end Visit

theorem Walker.Sound.of_next? (hw : w.Sound) (h : net.next? w = some (turn, next)) : next.Sound := by
  obtain ⟨habove, hfresh⟩ := hw
  rcases next?_cases h with ⟨entry, stack, hstack, -, -, rfl⟩ |
    ⟨id, stack, hstack, hid, -, rfl⟩ | ⟨id, stack, hstack, hid, -, rfl⟩ <;>
    rw [hstack] at habove hfresh
  · exact ⟨habove.of_cons, fun j hj => hfresh j (List.mem_cons_of_mem _ hj)⟩
  · obtain ⟨htop, hrest⟩ := List.pairwise_cons.mp habove
    refine ⟨hrest, fun j hj => ?_⟩
    have hlt : id < j := htop _ hj j rfl
    simpa [hlt.ne'] using hfresh j (List.mem_cons_of_mem _ hj)
  · obtain ⟨htop, hrest⟩ := List.pairwise_cons.mp habove
    have hinput : ∀ j ∈ net.pending w.seen id, j < id := fun j hj =>
      net.lt_of_mem_inputs (List.mem_filter.mp hj).1
    constructor
    · refine List.pairwise_append.mpr ⟨?_, List.pairwise_cons.mpr ⟨htop, hrest⟩, ?_⟩
      · exact List.pairwise_map.mpr (List.pairwise_of_forall fun _ _ _ h => nomatch h)
      · intro entry hentry later hlater k hk
        obtain ⟨j, hj, rfl⟩ := List.mem_map.mp hentry
        rcases List.mem_cons.mp hlater with rfl | hlater
        · obtain rfl := Visit.leave.inj hk
          exact hinput j hj
        · exact (hinput j hj).trans (htop later hlater k hk)
    · intro j hj
      rcases List.mem_append.mp hj with hj | hj
      · obtain ⟨_, _, henter⟩ := List.mem_map.mp hj
        cases henter
      · rcases List.mem_cons.mp hj with hj | hj
        · obtain rfl := Visit.leave.inj hj
          exact hid
        · exact hfresh j (List.mem_cons_of_mem _ hj)

/-- What a turn expands is to be left or listed behind it, and stays so. -/
theorem Walker.Sound.balance (hw : w.Sound) (h : net.next? w = some (turn, next)) :
    (turn.expanded?.toList ++ (w.open ++ w.seen)).Perm (next.open ++ next.seen) := by
  rcases next?_cases h with ⟨entry, stack, hstack, ⟨id, hid, rfl | rfl⟩, rfl, rfl⟩ |
    ⟨id, stack, hstack, hid, rfl, rfl⟩ | ⟨id, stack, hstack, hid, rfl, rfl⟩
  · simp [Walker.open, hstack, Turn.expanded?]
  · exact absurd hid (hw.fresh id (hstack ▸ List.mem_cons_self))
  · simpa [Walker.open, hstack, Turn.expanded?] using List.perm_middle.symm
  · simp only [Walker.open, hstack, Turn.expanded?, Option.toList_some, List.filterMap_append,
      Visit.filterMap_left?_map_enter, Visit.filterMap_left?_enter, Visit.filterMap_left?_leave]
    exact .refl _

theorem Takes.balance (h : net.Takes w turns last) (hw : w.Sound) :
    (turns.filterMap Turn.expanded? ++ (w.open ++ w.seen)).Perm (last.open ++ last.seen) := by
  induction h with
  | stop => exact .refl _
  | @turn w turn next turns last hnext _ ih =>
    have hsplit : (turn :: turns).filterMap Turn.expanded? =
        turn.expanded?.toList ++ turns.filterMap Turn.expanded? := by
      cases hexpanded : turn.expanded? <;> simp [hexpanded]
    rw [hsplit, List.append_assoc]
    refine List.perm_append_comm_assoc _ _ _ |>.trans ?_
    exact ((hw.balance hnext).append_left _).trans (ih (hw.of_next? hnext))

theorem seen_next (h : net.next? w = some (turn, next)) :
    next.seen = turn.listed?.toList ++ w.seen := by
  rcases next?_cases h with ⟨_, _, -, -, rfl, rfl⟩ | ⟨_, _, -, -, rfl, rfl⟩ |
    ⟨_, _, -, -, rfl, rfl⟩ <;> rfl

theorem Takes.seen_eq (h : net.Takes w turns last) :
    last.seen = (turns.filterMap Turn.listed?).reverse ++ w.seen := by
  induction h with
  | stop => rfl
  | @turn w turn next turns last hnext _ ih =>
    rw [ih, seen_next hnext, ← List.append_assoc]
    congr 1
    cases hlisted : turn.listed? <;> simp [hlisted]

/-! ### Enumeration -/

theorem getLast?_postOrder (root : NodeId) : (net.postOrder root).getLast? = some root := by
  rw [postOrder, List.getLast?_reverse, postOrderFrom_of_notMem List.not_mem_nil, List.head?_cons]

/-- A walk comes to an end, and then it has listed every node at and below its root once, each behind
all of its inputs and the root last, in the order of the recursive traversal. On the way it has
expanded each of these nodes once, and no others. -/
theorem walk_enumerates (net : Network α) (root : NodeId) :
    (∃ turns seen, net.Takes ⟨[.enter root], []⟩ turns ⟨[], seen⟩ ∧
      turns.filterMap Turn.listed? = net.walk root ∧
      (turns.filterMap Turn.expanded?).Nodup ∧
      ∀ id, id ∈ turns.filterMap Turn.expanded? ↔ net.Below root id) ∧
    net.walk root = net.postOrder root ∧ (net.walk root).Nodup ∧
    (∀ id, id ∈ net.walk root ↔ net.Below root id) ∧
    (∀ id ∈ net.walk root, ∀ j ∈ net.inputs id,
      j ∈ net.walk root ∧ (net.walk root).idxOf j < (net.walk root).idxOf id) ∧
    (net.walk root).getLast? = some root := by
  have hordered : net.Ordered (net.walk root) := by
    rw [walk_eq_postOrder]
    exact ordered_postOrder root
  refine ⟨?_, walk_eq_postOrder root, hordered.nodup, fun id => mem_walk_iff,
    fun id hid j hj => hordered.idxOf_lt hid hj, ?_⟩
  · obtain ⟨turns, seen, htakes⟩ := net.exists_takes ⟨[.enter root], []⟩
    have hwalk : net.walk root = seen.reverse := by
      rw [walk, htakes.walkFrom_eq, walkFrom]
    have hlisted : turns.filterMap Turn.listed? = net.walk root := by
      have hseen : seen = (turns.filterMap Turn.listed?).reverse := by
        simpa using htakes.seen_eq
      rw [hwalk, hseen, List.reverse_reverse]
    have hsound : Walker.Sound ⟨[.enter root], []⟩ :=
      ⟨List.pairwise_singleton _ _, fun _ _ => List.not_mem_nil⟩
    have hexpanded : (turns.filterMap Turn.expanded?).Perm (net.walk root) := by
      have hbalance := htakes.balance hsound
      simp only [Walker.open, Visit.filterMap_left?_enter, List.filterMap_nil, List.append_nil,
        List.nil_append] at hbalance
      rw [hwalk]
      exact hbalance.trans seen.reverse_perm.symm
    refine ⟨turns, seen, htakes, hlisted, hexpanded.nodup_iff.mpr hordered.nodup, fun id => ?_⟩
    rw [hexpanded.mem_iff, mem_walk_iff]
  · rw [walk_eq_postOrder, getLast?_postOrder]

end ShadeGraph.Network
