import Mdx.Proofs.Trace.Nesting

/-!
# Whatever is asked of a trace, it nests

A trace is written by requests: to start a phase, to end one, or to record something that happened.
Read as brackets, its events open a phase with each start and close the innermost one with each end.
After any requests this reading never closes a phase that is not open, leaves open what the trace holds
to be open, and finds every event under the phase that it says it belongs to (`Trace.WellNested`).

What one request preserves is `Nested` (`nested_apply`), which the replay of a trace checks event by
event.  That a trace is well nested is read off such a replay (`Nested.wellNested`).
-/

namespace Mdx.Trace

/-- What may be asked of a trace. -/
inductive Request where
  | startPhase (name detail : String)
  | endPhase
  | applied (stage : String) (index : Nat) (name : String) (replaced : Bool)
  | changed (label before after : String)
  | warning (text : String) (details : Json.Members)

/-- The trace after a request. -/
def apply (t : Trace) : Request → Trace
  | .startPhase name detail => t.startPhase name detail
  | .endPhase => t.endPhase
  | .applied stage index name replaced => t.applied stage index name replaced
  | .changed label before after => t.changed label before after
  | .warning text details => t.warning text details

/-- The trace after requests, one by one. -/
def applyAll (t : Trace) (requests : List Request) : Trace :=
  requests.foldl apply t

/-- What requests give a trace to record that has a number of phases open: to end a phase is
something only if one is open. -/
def recorded : (depth : Nat) → List Request → List Happening
  | _, [] => []
  | depth, .startPhase name detail :: rest => .phaseStart name detail :: recorded (depth + 1) rest
  | 0, .endPhase :: rest => recorded 0 rest
  | depth + 1, .endPhase :: rest => .phaseEnd :: recorded depth rest
  | depth, .applied stage index name replaced :: rest =>
      .applied stage index name replaced :: recorded depth rest
  | depth, .changed label before after :: rest =>
      .changed label before after :: recorded depth rest
  | depth, .warning text details :: rest => .warning text details :: recorded depth rest

/-! ### Events as brackets -/

/-- The phases that are open after an event with a number, if it is read as a bracket: a start opens a
phase under that number and an end closes the innermost one, of which there has to be one. -/
def bracket (stack : List Nat) (number : Nat) (e : Event) : Option (List Nat) :=
  match e.happening with
  | .phaseStart _ _ => some (number :: stack)
  | .phaseEnd =>
      match stack with
      | [] => none
      | _ :: below => some below
  | _ => some stack

/-- The phases that are open after events, the first of which has the given number. -/
def brackets (stack : List Nat) (number : Nat) : List Event → Option (List Nat)
  | [] => some stack
  | e :: rest =>
      match bracket stack number e with
      | some stack => brackets stack (number + 1) rest
      | none => none

/-- The events of a trace are brackets that match, and each belongs to the phase around it. -/
structure WellNested (t : Trace) : Prop where
  /-- No phase is closed that is not open, and what is open in the end is what the trace holds open. -/
  balanced : brackets [] 0 t.events = some t.openPhases
  /-- The end of a phase belongs to the start of the phase that it closes. -/
  ends : ∀ (i : Nat) (e : Event), t.events[i]? = some e → e.happening = .phaseEnd →
    ∃ (top : Nat) (below : List Nat) (start : Event),
      brackets [] 0 (t.events.take i) = some (top :: below) ∧ t.events[top]? = some start ∧
        start.IsStart ∧ e.parent = some top
  /-- Every other event belongs to the innermost phase that is open before it, if there is one. -/
  others : ∀ (i : Nat) (e : Event), t.events[i]? = some e → e.happening ≠ .phaseEnd →
    ∃ stack : List Nat, brackets [] 0 (t.events.take i) = some stack ∧ e.parent = stack.head?

/-! ### A replay reads brackets -/

section Replay

variable {stack last : List Nat} {number : Nat} {events : List Event}

/-- An event that can be replayed is a bracket that fits, and belongs to the innermost open phase. -/
theorem bracket_of_replayEvent {e : Event} (h : replayEvent stack number e = some last) :
    bracket stack number e = some last ∧ e.parent = stack.head? := by
  obtain ⟨happening, parent⟩ := e
  unfold replayEvent at h
  cases happening with
  | phaseEnd =>
    cases stack with
    | nil => cases h
    | cons top below =>
      dsimp only at h
      split at h
      next hparent => exact ⟨h, hparent⟩
      · cases h
  | _ =>
    dsimp only at h
    split at h
    next hparent => exact ⟨h, hparent⟩
    · cases h

theorem brackets_of_replayFrom (h : replayFrom stack number events = some last) :
    brackets stack number events = some last := by
  induction events generalizing stack number with
  | nil => exact h
  | cons e rest ih =>
    rw [replayFrom] at h
    cases hs : replayEvent stack number e with
    | none =>
      rw [hs] at h
      cases h
    | some stack' =>
      rw [hs] at h
      rw [brackets, (bracket_of_replayEvent hs).1]
      exact ih h

theorem exists_replayEvent (h : replayFrom stack number events = some last) {i : Nat} {e : Event}
    (he : events[i]? = some e) :
    ∃ before after : List Nat, replayFrom stack number (events.take i) = some before ∧
      replayEvent before (number + i) e = some after := by
  induction events generalizing stack number i with
  | nil => cases he
  | cons first rest ih =>
    rw [replayFrom] at h
    cases hs : replayEvent stack number first with
    | none =>
      rw [hs] at h
      cases h
    | some stack' =>
      rw [hs] at h
      cases i with
      | zero =>
        obtain rfl : first = e := Option.some.inj he
        exact ⟨stack, stack', rfl, hs⟩
      | succ i =>
        obtain ⟨before, after, hbefore, hafter⟩ := ih h he
        refine ⟨before, after, ?_, ?_⟩
        · rw [List.take_succ_cons, replayFrom, hs]
          exact hbefore
        · rwa [Nat.add_right_comm] at hafter

/-- A phase that is open after a replay was open before, or one of the events started it. -/
theorem mem_or_isStart_of_replayFrom (h : replayFrom stack number events = some last) {phase : Nat}
    (hp : phase ∈ last) :
    phase ∈ stack ∨
      ∃ (i : Nat) (e : Event), phase = number + i ∧ events[i]? = some e ∧ e.IsStart := by
  induction events generalizing stack number with
  | nil =>
    cases h
    exact .inl hp
  | cons first rest ih =>
    rw [replayFrom] at h
    cases hs : replayEvent stack number first with
    | none =>
      rw [hs] at h
      cases h
    | some stack' =>
      rw [hs] at h
      rcases ih h with hmem | ⟨i, e, hphase, he, hstart⟩
      · rcases replayEvent_cases hs with ⟨hstart, rfl⟩ | ⟨top, -, rfl⟩ | ⟨-, rfl⟩
        · rcases List.mem_cons.mp hmem with rfl | hmem
          · exact .inr ⟨0, first, rfl, rfl, hstart⟩
          · exact .inl hmem
        · exact .inl (List.mem_cons_of_mem top hmem)
        · exact .inl hmem
      · exact .inr ⟨i + 1, e, by omega, he, hstart⟩

end Replay

/-- **A trace that can be replayed is well nested.** -/
theorem Nested.wellNested {t : Trace} (h : t.Nested) : t.WellNested where
  balanced := brackets_of_replayFrom h
  ends := by
    intro i e he hend
    obtain ⟨before, after, hbefore, hafter⟩ := exists_replayEvent h he
    obtain ⟨hbracket, hparent⟩ := bracket_of_replayEvent hafter
    cases before with
    | nil =>
      rw [bracket, hend] at hbracket
      cases hbracket
    | cons top below =>
      -- the number on top of the stack is that of an event before this one
      rcases mem_or_isStart_of_replayFrom hbefore List.mem_cons_self with
        hmem | ⟨j, start, htop, hstart, hisStart⟩
      · cases hmem
      · obtain rfl : top = j := htop.trans (Nat.zero_add j)
        refine ⟨top, below, start, brackets_of_replayFrom hbefore, ?_, hisStart, hparent⟩
        rw [List.getElem?_take] at hstart
        split at hstart
        · exact hstart
        · cases hstart
  others := by
    intro i e he _
    obtain ⟨before, after, hbefore, hafter⟩ := exists_replayEvent h he
    exact ⟨before, brackets_of_replayFrom hbefore, (bracket_of_replayEvent hafter).2⟩

/-! ### Requests -/

theorem nested_apply {t : Trace} (h : t.Nested) (r : Request) : (t.apply r).Nested := by
  cases r with
  | startPhase name detail => exact h.startPhase name detail
  | endPhase => exact h.endPhase
  | applied stage index name replaced => exact h.record rfl
  | changed label before after => exact h.record rfl
  | warning text details => exact h.record rfl

theorem nested_applyAll {t : Trace} (h : t.Nested) (requests : List Request) :
    (t.applyAll requests).Nested := by
  induction requests generalizing t with
  | nil => exact h
  | cons r rest ih => exact ih (nested_apply h r)

/-- What a trace holds after requests is what it held before and what they give it to record. -/
theorem map_happening_applyAll (t : Trace) (requests : List Request) :
    (t.applyAll requests).events.map Event.happening =
      t.events.map Event.happening ++ recorded t.openPhases.length requests := by
  induction requests generalizing t with
  | nil => rw [recorded, List.append_nil, applyAll, List.foldl_nil]
  | cons r rest ih =>
    have hstep : t.applyAll (r :: rest) = (t.apply r).applyAll rest := rfl
    rw [hstep, ih]
    cases r with
    | startPhase name detail => simp [apply, startPhase, recorded]
    | endPhase =>
      cases hopen : t.openPhases with
      | nil =>
        rw [apply, endPhase_of_nil hopen, hopen]
        rfl
      | cons phase below => simp [apply, endPhase, hopen, recorded]
    | applied stage index name replaced => simp [apply, applied, record, recorded]
    | changed label before after => simp [apply, changed, record, recorded]
    | warning text details => simp [apply, warning, record, recorded]

/-- **The trace is always a well-formed nesting.**  After any requests to a new trace its events are
brackets that match; they are what the requests gave it to record, in order; and a request to end a
phase while none is open adds nothing. -/
theorem trace_is_well_nested (requests : List Request) :
    (applyAll {} requests).WellNested ∧
      (applyAll {} requests).events.map Event.happening = recorded 0 requests ∧
      ((applyAll {} requests).openPhases = [] →
        applyAll {} (requests ++ [.endPhase]) = applyAll {} requests) := by
  refine ⟨(nested_applyAll nested_empty requests).wellNested, map_happening_applyAll {} requests, ?_⟩
  intro hopen
  have hlast : applyAll {} (requests ++ [.endPhase]) = (applyAll {} requests).endPhase :=
    List.foldl_append
  rw [hlast, endPhase_of_nil hopen]

/-- Two phases, one in the other, with an end too many before and after them. -/
def twoPhases : List Request :=
  [.endPhase, .startPhase "Compile" "a.mdx", .warning "first" [], .startPhase "Stage 1" "",
   .applied "stage1" 0 "noop" false, .endPhase, .endPhase, .endPhase, .changed "tree" "1" "2"]

theorem trace_is_well_nested_two_phases :
    (applyAll {} twoPhases).openPhases = [] ∧ (applyAll {} twoPhases).WellNested ∧
      (applyAll {} twoPhases).events.map Event.parent =
        [none, some 0, some 0, some 2, some 2, some 0, none] ∧
      applyAll {} (twoPhases ++ [.endPhase]) = applyAll {} twoPhases :=
  have hopen : (applyAll {} twoPhases).openPhases = [] := rfl
  have h := trace_is_well_nested twoPhases
  ⟨hopen, h.1, rfl, h.2.2 hopen⟩

end Mdx.Trace
