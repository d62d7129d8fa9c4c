import Mdx.Trace.Basic

/-!
# Traces nest

A trace is replayed as a text of brackets: the start of a phase opens one, its end closes the innermost
one, and every other event stands inside.  Replaying checks that each event belongs to the phase that is
open at its place, and gives the phases that are open in the end.

What a trace records can always be replayed and leaves its open phases open (`Nested.record`,
`Nested.startPhase`, `Nested.endPhase`).  In a replay that leaves none open every phase is closed exactly
once (`countP_closes_of_start`).
-/

namespace Mdx

/-- Whether something that happened neither starts nor ends a phase. -/
def Happening.isPlain : Happening → Bool
  | .phaseStart _ _ => false
  | .phaseEnd => false
  | _ => true

/-- Whether an event ends the phase with a number. -/
def Event.closes (number : Nat) (e : Event) : Bool :=
  match e.happening with
  | .phaseEnd => e.parent = some number
  | _ => false

/-- Whether an event starts a phase. -/
def Event.IsStart (e : Event) : Prop :=
  ∃ (name detail : String) (parent : Option Nat), e = ⟨.phaseStart name detail, parent⟩

namespace Trace

/-! ### Replaying events -/

/-- The open phases after an event with a number, the innermost first, if the event belongs to the phase
that is open before. -/
def replayEvent (stack : List Nat) (number : Nat) (e : Event) : Option (List Nat) :=
  match e.happening with
  | .phaseStart _ _ => if e.parent = stack.head? then some (number :: stack) else none
  | .phaseEnd =>
      match stack with
      | [] => none
      | top :: below => if e.parent = some top then some below else none
  | _ => if e.parent = stack.head? then some stack else none

/-- The open phases after events, the first of which has the given number. -/
def replayFrom (stack : List Nat) (number : Nat) : List Event → Option (List Nat)
  | [] => some stack
  | e :: rest =>
      match replayEvent stack number e with
      | some stack => replayFrom stack (number + 1) rest
      | none => none

/-- The events of a trace can be replayed, and leave open the phases that are open. -/
def Nested (t : Trace) : Prop :=
  replayFrom [] 0 t.events = some t.openPhases

theorem replayFrom_concat {stack last : List Nat} {number : Nat} {events : List Event}
    (h : replayFrom stack number events = some last) (e : Event) :
    replayFrom stack number (events ++ [e]) = replayEvent last (number + events.length) e := by
  induction events generalizing stack number with
  | nil =>
    cases h
    rw [List.nil_append, replayFrom, List.length_nil, Nat.add_zero]
    cases replayEvent last number e <;> rfl
  | cons first rest ih =>
    rw [replayFrom] at h
    rw [List.cons_append, replayFrom]
    cases hs : replayEvent stack number first with
    | none =>
      rw [hs] at h
      cases h
    | some stack' =>
      rw [hs] at h
      have hlength : number + (first :: rest).length = number + 1 + rest.length := by
        rw [List.length_cons]
        omega
      rw [hlength]
      exact ih h

theorem nested_empty : ({} : Trace).Nested :=
  rfl

section Steps

variable {t : Trace}

theorem Nested.concat {e : Event} {after : Trace} (h : t.Nested)
    (hevents : after.events = t.events ++ [e])
    (he : replayEvent t.openPhases t.events.length e = some after.openPhases) : after.Nested := by
  rw [Nested, hevents, replayFrom_concat h, Nat.zero_add, he]

theorem Nested.record {h : Happening} (hn : t.Nested) (hh : h.isPlain = true) :
    (t.record h).Nested := by
  refine hn.concat rfl ?_
  cases h with
  | phaseStart name detail => cases hh
  | phaseEnd => cases hh
  | _ => exact if_pos rfl

theorem Nested.startPhase (hn : t.Nested) (name detail : String) :
    (t.startPhase name detail).Nested :=
  hn.concat rfl (if_pos rfl)

theorem Nested.endPhase (hn : t.Nested) : t.endPhase.Nested := by
  cases hopen : t.openPhases with
  | nil =>
    rw [endPhase_of_nil hopen]
    exact hn
  | cons phase rest =>
    have hend : t.endPhase = ⟨t.events ++ [⟨.phaseEnd, some phase⟩], rest⟩ := by
      rw [Trace.endPhase, hopen]
    rw [hend]
    refine hn.concat rfl ?_
    rw [hopen]
    exact if_pos rfl

end Steps

/-! ### Phases that are closed -/

/-- What one event does to the open phases: it opens one, closes the innermost one, or leaves them. -/
theorem replayEvent_cases {stack stack' : List Nat} {number : Nat} {e : Event}
    (h : replayEvent stack number e = some stack') :
    (e.IsStart ∧ stack' = number :: stack) ∨
      (∃ top : Nat, e = ⟨.phaseEnd, some top⟩ ∧ stack = top :: stack') ∨
      (e.happening.isPlain = true ∧ stack' = stack) := by
  obtain ⟨happening, parent⟩ := e
  unfold replayEvent at h
  cases happening with
  | phaseStart name detail =>
    dsimp only at h
    split at h
    · cases h
      exact .inl ⟨⟨name, detail, parent, rfl⟩, rfl⟩
    · cases h
  | phaseEnd =>
    dsimp only at h
    cases stack with
    | nil => cases h
    | cons top below =>
      dsimp only at h
      split at h
      next hparent =>
        cases h
        exact .inr (.inl ⟨top, by rw [hparent], rfl⟩)
      · cases h
  | _ =>
    dsimp only at h
    split at h
    · cases h
      exact .inr (.inr ⟨rfl, rfl⟩)
    · cases h

theorem closes_of_isStart {e : Event} (h : e.IsStart) (number : Nat) : e.closes number = false := by
  obtain ⟨name, detail, parent, rfl⟩ := h
  rfl

theorem closes_of_isPlain {e : Event} (h : e.happening.isPlain = true) (number : Nat) :
    e.closes number = false := by
  obtain ⟨happening, parent⟩ := e
  cases happening with
  | phaseEnd => cases h
  | _ => rfl

/-- **Phases that are open are closed as often as they are open**, if none is open in the end. -/
theorem countP_closes_of_lt {stack : List Nat} {number i : Nat} {events : List Event}
    (h : replayFrom stack number events = some []) (hi : i < number) :
    events.countP (Event.closes i) = stack.count i := by
  induction events generalizing stack number with
  | nil =>
    cases h
    rfl
  | cons e rest ih =>
    rw [replayFrom] at h
    cases hs : replayEvent stack number e with
    | none =>
      rw [hs] at h
      cases h
    | some stack' =>
      rw [hs] at h
      have hrest := ih h (Nat.lt_succ_of_lt hi)
      rw [List.countP_cons, hrest]
      rcases replayEvent_cases hs with ⟨hstart, rfl⟩ | ⟨top, rfl, rfl⟩ | ⟨hplain, rfl⟩
      · have hne : number ≠ i := by omega
        rw [closes_of_isStart hstart, List.count_cons_of_ne hne]
        rfl
      · rw [List.count_cons]
        have hcloses : Event.closes i ⟨.phaseEnd, some top⟩ = (top == i) := by
          show decide (some top = some i) = (top == i)
          by_cases htop : top = i <;> simp [htop]
        rw [hcloses]
      · rw [closes_of_isPlain hplain]
        rfl

/-- **A phase that is started is closed exactly once**, if none is open in the end. -/
theorem countP_closes_of_start {stack : List Nat} {number i : Nat} {events : List Event} {e : Event}
    (h : replayFrom stack number events = some []) (hstack : ∀ j ∈ stack, j < number)
    (he : events[i]? = some e) (hstart : e.IsStart) :
    events.countP (Event.closes (number + i)) = 1 := by
  induction events generalizing stack number i with
  | nil => cases he
  | cons first rest ih =>
    rw [replayFrom] at h
    cases hs : replayEvent stack number first with
    | none =>
      rw [hs] at h
      cases h
    | some stack' =>
      rw [hs] at h
      cases i with
      | zero =>
        -- the phase is on the stack from now on, and there only once
        obtain rfl : first = e := Option.some.inj he
        obtain ⟨name, detail, parent, rfl⟩ := hstart
        rcases replayEvent_cases hs with ⟨-, rfl⟩ | ⟨top, hend, -⟩ | ⟨hplain, -⟩
        · have hfresh : number ∉ stack := fun hmem => Nat.lt_irrefl _ (hstack number hmem)
          rw [List.countP_cons, Nat.add_zero, countP_closes_of_lt h (Nat.lt_succ_self number),
            List.count_cons_self, List.count_eq_zero_of_not_mem hfresh]
          rfl
        · cases hend
        · cases hplain
      | succ i =>
        have hnumber : number + (i + 1) = number + 1 + i := by omega
        have hfirst : first.closes (number + 1 + i) = false := by
          rcases replayEvent_cases hs with ⟨hstart, -⟩ | ⟨top, rfl, rfl⟩ | ⟨hplain, -⟩
          · exact closes_of_isStart hstart _
          · have htop := hstack top List.mem_cons_self
            show decide (some top = some (number + 1 + i)) = false
            rw [decide_eq_false_iff_not, Option.some.injEq]
            omega
          · exact closes_of_isPlain hplain _
        have hstack' : ∀ j ∈ stack', j < number + 1 := by
          intro j hj
          rcases replayEvent_cases hs with ⟨-, rfl⟩ | ⟨top, -, rfl⟩ | ⟨-, rfl⟩
          · rcases List.mem_cons.mp hj with rfl | hj
            · exact Nat.lt_succ_self _
            · exact Nat.lt_succ_of_lt (hstack j hj)
          · exact Nat.lt_succ_of_lt (hstack j (List.mem_cons_of_mem top hj))
          · exact Nat.lt_succ_of_lt (hstack j hj)
        rw [hnumber, List.countP_cons, hfirst]
        exact ih h hstack' he

end Trace

end Mdx
