import CaseExpansion.Proofs.Source.Lexemes
import CaseExpansion.Source.Parse.State

namespace CaseExpansion
namespace Source

open List

/-!
# What a parse gathers on its way

The grammar decides where a parse goes, but not what happens to the comments that
it passes: whenever a parser moves on, each comment that it passes goes into a
group, in order, and nothing else does.  `Passes` says this of a whole stretch of
a parse.  A lead comment is one of the groups that were passed last.

All this rests on the course of the states alone (`ParseState.Reaches`), so that
it holds for every parser of the grammar.
-/

/-- The comment that a lexeme is. -/
def Lexeme.comment? (lexeme : Lexeme) : Option Comment :=
  if lexeme.token = .comment then some ⟨lexeme.offset, lexeme.literal⟩ else none

theorem Lexeme.comment?_eq_some {lexeme : Lexeme} (isComment : lexeme.token = .comment) :
    lexeme.comment? = some ⟨lexeme.offset, lexeme.literal⟩ :=
  if_pos isComment

theorem Lexeme.comment?_eq_none {lexeme : Lexeme} (notComment : lexeme.token ≠ .comment) :
    lexeme.comment? = none :=
  if_neg notComment

namespace ParseState

/-- The lexemes that have not been taken. -/
def remaining (state : ParseState) : List Lexeme :=
  state.current :: state.ahead

/-- The end of the file is still to come. -/
def Closed (state : ParseState) : Prop :=
  state.remaining.getLast?.map Lexeme.token = some .eof

variable {earlier later state : ParseState}

theorem Closed.of_append {passed : List Lexeme} (closed : earlier.Closed)
    (remaining : earlier.remaining = passed ++ later.remaining) : later.Closed := by
  have some : later.remaining ≠ [] := cons_ne_nil _ _
  rwa [Closed, remaining, getLast?_append_of_ne_nil passed some] at closed

/-- A stretch of a parse takes the given lexemes and gathers their comments into the
given groups, newest first. -/
structure Passes (earlier later : ParseState) (passed : List Lexeme) (added : List CommentGroup) :
    Prop where
  remaining : earlier.remaining = passed ++ later.remaining
  comments : later.comments = added ++ earlier.comments
  gathered : added.reverse.flatten = passed.filterMap Lexeme.comment?
  nonempty : ∀ group ∈ added, group ≠ []
  diagnostics : earlier.diagnostics <:+ later.diagnostics

namespace Passes

variable {first second third : ParseState} {passed more : List Lexeme} {added others : List CommentGroup}

theorem refl (state : ParseState) : state.Passes state [] [] :=
  ⟨rfl, rfl, rfl, nofun, suffix_refl _⟩

theorem trans (start : first.Passes second passed added) (rest : second.Passes third more others) :
    first.Passes third (passed ++ more) (others ++ added) where
  remaining := by rw [start.remaining, rest.remaining, append_assoc]
  comments := by rw [rest.comments, start.comments, append_assoc]
  gathered := by
    rw [reverse_append, flatten_append, start.gathered, rest.gathered, filterMap_append]
  nonempty group member := (mem_append.mp member).elim (rest.nonempty group) (start.nonempty group)
  diagnostics := start.diagnostics.trans rest.diagnostics

/-- A group has been passed, so that there is less ahead. -/
theorem length_lt {group : CommentGroup} (passes : first.Passes second passed [group]) :
    second.ahead.length < first.ahead.length := by
  have gathered := passes.gathered
  have remaining := congrArg List.length passes.remaining
  rw [length_append] at remaining
  change first.ahead.length + 1 = passed.length + (second.ahead.length + 1) at remaining
  cases passed with
  | nil =>
    rw [reverse_singleton, flatten_singleton] at gathered
    exact absurd gathered (passes.nonempty group (mem_singleton_self group))
  | cons lexeme passed =>
    rw [length_cons] at remaining
    omega

end Passes

theorem Closed.token_eq (closed : state.Closed) (isLast : state.ahead = []) :
    state.current.token = .eof := by
  rw [Closed, remaining, isLast, getLast?_singleton] at closed
  exact Option.some.inj closed

/-! ## One lexeme -/

theorem shift_suffix (state : ParseState) : state.diagnostics <:+ state.shift.diagnostics := by
  rw [shift]
  split
  · exact suffix_refl _
  · dsimp only
    rw [foldl_flip_cons_eq_append]
    exact suffix_append _ _

theorem shift_remaining_of_cons {lexeme : Lexeme} {ahead : List Lexeme}
    (isAhead : state.ahead = lexeme :: ahead) :
    state.remaining = [state.current] ++ state.shift.remaining := by
  rw [shift, remaining, isAhead]
  rfl

/-- Only the end of the file is not passed. -/
theorem shift_remaining (closed : state.Closed) (notEnd : state.current.token ≠ .eof) :
    state.remaining = [state.current] ++ state.shift.remaining := by
  cases isAhead : state.ahead with
  | nil => exact absurd (closed.token_eq isAhead) notEnd
  | cons lexeme ahead => exact shift_remaining_of_cons isAhead

theorem shift_comments (state : ParseState) : state.shift.comments = state.comments := by
  rw [shift]
  split <;> rfl

theorem shift_lead (state : ParseState) : state.shift.lead = state.lead := by
  rw [shift]
  split <;> rfl

/-- Moving on from a lexeme that is no comment gathers nothing. -/
theorem shift_passes (notComment : state.current.token ≠ .comment) :
    ∃ passed, state.Passes state.shift passed [] := by
  cases isAhead : state.ahead with
  | nil =>
    refine ⟨[], ?_, ?_, rfl, nofun, shift_suffix state⟩
    · rw [shift, isAhead, remaining, remaining, isAhead, nil_append]
    · rw [shift_comments, nil_append]
  | cons lexeme ahead =>
    refine ⟨[state.current], ?_, ?_, ?_, nofun, shift_suffix state⟩
    · exact shift_remaining_of_cons isAhead
    · rw [shift_comments, nil_append]
    · rw [filterMap_cons_none (Lexeme.comment?_eq_none notComment)]
      rfl

/-! ## Groups of comments -/

theorem commentRun_takes (gap limit endLine : Nat) (closed : state.Closed) :
    ∃ passed, state.remaining = passed ++ (commentRun gap limit endLine state).state.remaining ∧
      (commentRun gap limit endLine state).group = passed.filterMap Lexeme.comment? ∧
      (commentRun gap limit endLine state).state.comments = state.comments ∧
      (commentRun gap limit endLine state).state.lead = state.lead ∧
      state.diagnostics <:+ (commentRun gap limit endLine state).state.diagnostics := by
  induction limit generalizing endLine state with
  | zero => exact ⟨[], rfl, rfl, rfl, rfl, suffix_refl _⟩
  | succ limit ih =>
    rw [commentRun]
    split
    · exact ⟨[], rfl, rfl, rfl, rfl, suffix_refl _⟩
    next isNear =>
      rw [Bool.or_eq_true, not_or, decide_eq_true_eq, not_not] at isNear
      have notEnd : state.current.token ≠ .eof := by
        rw [isNear.1]
        exact nofun
      have moved := shift_remaining closed notEnd
      rcases ih (lastLine state.line state.current.literal)
          (closed.of_append moved) with
        ⟨passed, rest, group, comments, lead, diagnostics⟩
      refine ⟨[state.current] ++ passed, ?_, ?_, comments.trans (shift_comments state),
        lead.trans (shift_lead state), (shift_suffix state).trans diagnostics⟩
      · rw [moved, rest, append_assoc]
      · rw [singleton_append, filterMap_cons_some (Lexeme.comment?_eq_some isNear.1), ← group]

theorem commentGroup_passes (gap : Nat) (closed : state.Closed)
    (isComment : state.current.token = .comment) :
    ∃ passed, state.Passes (state.commentGroup gap).state passed [(state.commentGroup gap).group] ∧
      (state.commentGroup gap).state.lead = state.lead := by
  rcases commentRun_takes gap (state.ahead.length + 1) state.line closed with
    ⟨passed, rest, group, comments, lead, diagnostics⟩
  refine ⟨passed, ⟨rest, ?_, ?_, ?_, diagnostics⟩, lead⟩
  · rw [commentGroup, singleton_append]
    exact congrArg _ comments
  · rw [reverse_singleton, flatten_singleton]
    exact group
  · intro other member
    cases mem_singleton.mp member
    rw [commentGroup, commentRun, if_neg]
    · exact cons_ne_nil _ _
    · rw [Bool.or_eq_true, decide_eq_true_eq, decide_eq_true_eq]
      rintro (notComment | isFar)
      · exact notComment isComment
      · omega

theorem lastGroup_passes {limit : Nat} {taken : Taken} (closed : taken.state.Closed)
    (enough : taken.state.ahead.length ≤ limit) :
    ∃ passed added, taken.state.Passes (lastGroup limit taken).state passed added ∧
      (lastGroup limit taken).state.current.token ≠ .comment ∧
      (lastGroup limit taken).state.lead = taken.state.lead ∧
      (lastGroup limit taken).group ∈ added ++ [taken.group] := by
  induction limit generalizing taken with
  | zero =>
    -- Nothing is ahead, so that the current lexeme is the end of the file.
    have isLast := closed.token_eq (eq_nil_of_length_eq_zero (Nat.le_zero.mp enough))
    refine ⟨[], [], Passes.refl _, ?_, rfl, mem_singleton_self _⟩
    rw [lastGroup, isLast]
    exact nofun
  | succ limit ih =>
    rw [lastGroup]
    split
    next isComment =>
      rcases commentGroup_passes 1 closed isComment with ⟨passed, passes, lead⟩
      have fewer := passes.length_lt
      rcases ih (closed.of_append passes.remaining) (by omega) with
        ⟨rest, added, others, notComment, sameLead, isLast⟩
      exact ⟨_, _, passes.trans others, notComment, sameLead.trans lead,
        mem_append_left [taken.group] isLast⟩
    next notComment =>
      exact ⟨[], [], Passes.refl _, notComment, rfl, mem_singleton_self _⟩

theorem takeTrail_passes (line : Nat) (closed : state.Closed) :
    ∃ passed added, state.Passes (state.takeTrail line) passed added ∧
      (state.takeTrail line).lead = state.lead := by
  rw [takeTrail]
  split
  next isNear =>
    rw [Bool.and_eq_true, decide_eq_true_eq] at isNear
    rcases commentGroup_passes 0 closed isNear.1 with ⟨passed, passes, lead⟩
    dsimp only
    split
    · exact ⟨passed, _, ⟨passes.remaining, passes.comments, passes.gathered, passes.nonempty,
        passes.diagnostics⟩, lead⟩
    · exact ⟨passed, _, passes, lead⟩
  · exact ⟨[], [], Passes.refl state, rfl⟩

theorem takeLead_passes (closed : state.Closed) (noLead : state.lead = none) :
    ∃ passed added, state.Passes state.takeLead passed added ∧
      state.takeLead.current.token ≠ .comment ∧
      ∀ group, state.takeLead.lead = some group → group ∈ added := by
  rw [takeLead]
  split
  next isComment =>
    rcases commentGroup_passes 1 closed isComment with ⟨passed, passes, lead⟩
    rcases lastGroup_passes (closed.of_append passes.remaining) (Nat.le_of_lt passes.length_lt) with
      ⟨rest, added, others, notComment, sameLead, isLast⟩
    have whole := passes.trans others
    dsimp only
    split
    · refine ⟨_, _, ⟨whole.remaining, whole.comments, whole.gathered, whole.nonempty,
        whole.diagnostics⟩, notComment, ?_⟩
      intro group isLead
      rwa [← Option.some.inj isLead]
    · refine ⟨_, _, whole, notComment, ?_⟩
      intro group isLead
      rw [sameLead, lead, noLead] at isLead
      cases isLead
  next notComment =>
    refine ⟨[], [], Passes.refl state, notComment, ?_⟩
    intro group isLead
    rw [noLead] at isLead
    cases isLead

/-- Moving on gathers the comments on the way.  The lead comment is one of them. -/
theorem next_passes (closed : state.Closed) (notComment : state.current.token ≠ .comment) :
    ∃ passed added, state.Passes state.next passed added ∧ state.next.current.token ≠ .comment ∧
      ∀ group, state.next.lead = some group → group ∈ added := by
  rw [next]
  generalize isCleared : ({ state with lead := none, trail := none } : ParseState) = cleared
  have start : state.Passes cleared [] [] := by
    rw [← isCleared]
    exact ⟨rfl, rfl, rfl, nofun, suffix_refl _⟩
  have sameCurrent : cleared.current = state.current := by rw [← isCleared]
  rw [← sameCurrent] at notComment
  rcases shift_passes notComment with ⟨taken, shifts⟩
  have shifted := start.trans shifts
  rcases takeTrail_passes (if state.started then state.line else 0) (closed.of_append shifted.remaining)
    with ⟨beside, trailing, trail, sameLead⟩
  have trailed := shifted.trans trail
  have noLead : (cleared.shift.takeTrail (if state.started then state.line else 0)).lead = none := by
    rw [sameLead, shift_lead, ← isCleared]
  rcases takeLead_passes (closed.of_append trailed.remaining) noLead with
    ⟨above, leading, lead, isNext, isLead⟩
  exact ⟨_, _, trailed.trans lead, isNext, fun group hasLead =>
    mem_append_left _ (isLead group hasLead)⟩

/-! ## The whole course -/

/-- A state at which the grammar may look. -/
structure Ready (state : ParseState) : Prop where
  closed : state.Closed
  notComment : state.current.token ≠ .comment
  lead : ∀ group, state.lead = some group → group ∈ state.comments

theorem Ready.next (ready : state.Ready) : state.next.Ready := by
  rcases next_passes ready.closed ready.notComment with ⟨passed, added, passes, notComment, isLead⟩
  refine ⟨ready.closed.of_append passes.remaining, notComment, ?_⟩
  intro group hasLead
  rw [passes.comments]
  exact mem_append_left _ (isLead group hasLead)

theorem Amends.passes (amends : later.Amends earlier) : earlier.Passes later [] [] := by
  rcases amends with ⟨notes, complaints, rfl⟩
  exact ⟨rfl, rfl, rfl, nofun, suffix_append _ _⟩

theorem Ready.amend (ready : earlier.Ready) (amends : later.Amends earlier) : later.Ready := by
  rcases amends with ⟨notes, complaints, rfl⟩
  exact ⟨ready.closed, ready.notComment, ready.lead⟩

theorem Ready.reaches (ready : earlier.Ready) (reaches : earlier.Reaches later) : later.Ready := by
  induction reaches with
  | refl => exact ready
  | amend _ amends ih => exact ih.amend amends
  | next _ ih => exact ih.next

/-- What every parser does to the lexemes and comments of a state.  A lead comment
was there before, or it has been passed on the way. -/
theorem Reaches.passes (reaches : earlier.Reaches later) (ready : earlier.Ready) :
    ∃ passed added, earlier.Passes later passed added ∧
      ∀ group, later.lead = some group → earlier.lead = some group ∨ group ∈ added := by
  induction reaches with
  | refl => exact ⟨[], [], Passes.refl _, fun group => Or.inl⟩
  | amend _ amends ih =>
    rcases ih with ⟨passed, added, passes, lead⟩
    refine ⟨_, _, passes.trans amends.passes, ?_⟩
    rcases amends with ⟨notes, complaints, rfl⟩
    exact lead
  | next before ih =>
    rcases ih with ⟨passed, added, passes, _⟩
    have isReady := ready.reaches before
    rcases next_passes isReady.closed isReady.notComment with ⟨taken, more, moves, _, isLead⟩
    exact ⟨_, _, passes.trans moves, fun group hasLead =>
      Or.inr (mem_append_left added (isLead group hasLead))⟩

/-- Once a parse has moved on, every lead comment has been passed on the way. -/
theorem Reaches.passes_of_next (reaches : state.next.Reaches later) (ready : state.Ready) :
    ∃ passed added, state.Passes later passed added ∧
      ∀ group, later.lead = some group → group ∈ added := by
  rcases next_passes ready.closed ready.notComment with ⟨passed, added, moves, _, isLead⟩
  rcases reaches.passes ready.next with ⟨rest, more, passes, lead⟩
  refine ⟨_, _, moves.trans passes, fun group hasLead => ?_⟩
  rcases lead group hasLead with before | isAdded
  · exact mem_append_right more (isLead group before)
  · exact mem_append_left added isAdded

end ParseState
end Source
end CaseExpansion
