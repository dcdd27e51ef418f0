import CaseExpansion.Proofs.Source.Faults
import CaseExpansion.Proofs.Source.Placement

namespace CaseExpansion
namespace Source

open List

/-!
# The words that a parser has before it

The grammar sees the tokens of a text one after another, without the comments.  Moving
on takes one word, and it reports the faults of the lexemes that are met on the way and
nothing else.  Since a file is read to its end, a file without complaints has no lexeme
with a fault.
-/

/-! ## Words up to the end of the file -/

namespace Token.Ended

variable {words : List Token}

theorem ne_nil (ended : Ended words) : words ≠ [] := by
  rintro rfl
  exact ended

theorem of_append {front : List Token} (ended : Ended (front ++ words)) (some : words ≠ []) :
    Ended words := by
  induction front with
  | nil => exact ended
  | cons first front ih =>
    cases rest : front ++ words with
    | nil => exact absurd (append_eq_nil_iff.mp rest).2 some
    | cons second others =>
      rw [cons_append, rest] at ended
      exact ih (rest ▸ ended.2)

/-- Nothing stands after the end of the file. -/
theorem eq_nil_of_eof {rest : List Token} (ended : Ended (.eof :: rest)) : rest = [] := by
  cases rest with
  | nil => rfl
  | cons second rest => exact absurd rfl ended.1

theorem filter (ended : Ended words) : Ended (words.filter (· ≠ .comment)) := by
  induction words with
  | nil => exact ended
  | cons first words ih =>
    cases words with
    | nil =>
      cases ended
      exact rfl
    | cons second rest =>
      rw [filter_cons]
      split
      · exact (ih ended.2).cons ended.1
      · exact ih ended.2

end Token.Ended

namespace ParseState

/-- The words that have not been taken. -/
def words (state : ParseState) : List Token :=
  (state.remaining.map Lexeme.token).filter (· ≠ .comment)

/-! ## Lexemes that are met -/

/-- A stretch of a parse takes some lexemes and meets others, whose faults are reported. -/
structure Meets (earlier later : ParseState) (passed met : List Lexeme) : Prop where
  remaining : earlier.remaining = passed ++ later.remaining
  ahead : earlier.ahead = met ++ later.ahead
  clean : later.diagnostics = [] ↔ earlier.diagnostics = [] ∧ ∀ lexeme ∈ met, lexeme.faults = []
  notes : later.notes = earlier.notes

namespace Meets

variable {first second third : ParseState} {passed more met others : List Lexeme}

theorem refl (state : ParseState) : state.Meets state [] [] :=
  ⟨rfl, rfl, ⟨fun clean => ⟨clean, forall_mem_nil _⟩, And.left⟩, rfl⟩

theorem trans (start : first.Meets second passed met) (rest : second.Meets third more others) :
    first.Meets third (passed ++ more) (met ++ others) where
  remaining := by rw [start.remaining, rest.remaining, append_assoc]
  ahead := by rw [start.ahead, rest.ahead, append_assoc]
  clean := by rw [rest.clean, start.clean, forall_mem_append, and_assoc]
  notes := rest.notes.trans start.notes

end Meets

variable {state : ParseState}

theorem shift_meets {lexeme : Lexeme} {ahead : List Lexeme} (isAhead : state.ahead = lexeme :: ahead) :
    state.Meets state.shift [state.current] [lexeme] where
  remaining := shift_remaining_of_cons isAhead
  ahead := by
    rw [shift, isAhead]
    rfl
  clean := by
    rw [shift, isAhead, forall_mem_singleton]
    dsimp only
    rw [foldl_flip_cons_eq_append, append_eq_nil_iff, reverse_eq_nil_iff,
      map_eq_nil_iff, and_comm]
  notes := by rw [shift, isAhead]

/-- Only comments are taken. -/
def Skips (earlier later : ParseState) : Prop :=
  ∃ passed met, earlier.Meets later passed met ∧ ∀ lexeme ∈ passed, lexeme.token = .comment

theorem Skips.refl (state : ParseState) : state.Skips state :=
  ⟨[], [], .refl state, forall_mem_nil _⟩

theorem Skips.trans {first second third : ParseState} (start : first.Skips second)
    (rest : second.Skips third) : first.Skips third := by
  rcases start with ⟨passed, met, meets, comments⟩
  rcases rest with ⟨more, others, further, moreComments⟩
  exact ⟨_, _, meets.trans further, forall_mem_append.mpr ⟨comments, moreComments⟩⟩

theorem shift_skips (closed : state.Closed) (isComment : state.current.token = .comment) :
    state.Skips state.shift := by
  cases isAhead : state.ahead with
  | nil =>
    rw [closed.token_eq isAhead] at isComment
    cases isComment
  | cons lexeme ahead =>
    exact ⟨_, _, shift_meets isAhead, forall_mem_singleton.mpr isComment⟩

theorem Skips.closed {earlier later : ParseState} (skips : earlier.Skips later)
    (closed : earlier.Closed) : later.Closed := by
  rcases skips with ⟨_, _, meets, _⟩
  exact closed.of_append meets.remaining

theorem commentRun_skips (gap limit endLine : Nat) (closed : state.Closed) :
    state.Skips (commentRun gap limit endLine state).state := by
  induction limit generalizing endLine state with
  | zero => exact Skips.refl state
  | succ limit ih =>
    rw [commentRun]
    split
    · exact Skips.refl state
    next isNear =>
      rw [Bool.or_eq_true, not_or, decide_eq_true_eq, not_not] at isNear
      have skips := shift_skips closed isNear.1
      exact skips.trans (ih _ (skips.closed closed))

theorem commentGroup_skips (gap : Nat) (closed : state.Closed) :
    state.Skips (state.commentGroup gap).state := by
  rcases commentRun_skips gap (state.ahead.length + 1) state.line closed with
    ⟨passed, met, meets, comments⟩
  exact ⟨passed, met, ⟨meets.remaining, meets.ahead, meets.clean, meets.notes⟩, comments⟩

theorem takeTrail_skips (line : Nat) (closed : state.Closed) : state.Skips (state.takeTrail line) := by
  rcases commentGroup_skips 0 closed with ⟨passed, met, meets, comments⟩
  rw [takeTrail]
  split
  · dsimp only
    split
    · exact ⟨passed, met, ⟨meets.remaining, meets.ahead, meets.clean, meets.notes⟩, comments⟩
    · exact ⟨passed, met, meets, comments⟩
  · exact Skips.refl state

theorem lastGroup_skips (limit : Nat) {taken : Taken} (closed : taken.state.Closed) :
    taken.state.Skips (lastGroup limit taken).state := by
  induction limit generalizing taken with
  | zero => exact Skips.refl _
  | succ limit ih =>
    rw [lastGroup]
    split
    · have skips := commentGroup_skips 1 closed
      exact skips.trans (ih (skips.closed closed))
    · exact Skips.refl _

theorem takeLead_skips (closed : state.Closed) : state.Skips state.takeLead := by
  have group := commentGroup_skips 1 closed
  rcases group.trans (lastGroup_skips state.ahead.length (group.closed closed)) with
    ⟨passed, met, meets, comments⟩
  rw [takeLead]
  split
  · dsimp only
    split
    · exact ⟨passed, met, ⟨meets.remaining, meets.ahead, meets.clean, meets.notes⟩, comments⟩
    · exact ⟨passed, met, meets, comments⟩
  · exact Skips.refl state

/-! ## Moving on -/

theorem words_of_notComment (notComment : state.current.token ≠ .comment) :
    state.words = state.current.token :: (state.ahead.map Lexeme.token).filter (· ≠ .comment) := by
  rw [words, remaining, map_cons, filter_cons, if_pos (decide_eq_true notComment)]

/-- Moving on takes one lexeme that is no comment, and the comments after it. -/
theorem next_meets (closed : state.Closed) (some : state.ahead ≠ []) :
    ∃ comments met, state.Meets state.next (state.current :: comments) met ∧
      ∀ lexeme ∈ comments, lexeme.token = .comment := by
  rw [next]
  generalize isCleared : ({ state with lead := none, trail := none } : ParseState) = cleared
  have start : state.Meets cleared [] [] := by
    rw [← isCleared]
    exact ⟨rfl, rfl, (Meets.refl state).clean, rfl⟩
  have sameCurrent : cleared.current = state.current := by rw [← isCleared]
  have sameAhead : cleared.ahead = state.ahead := by rw [← isCleared]
  rcases exists_cons_of_ne_nil some with ⟨lexeme, ahead, isAhead⟩
  have shifts := start.trans (shift_meets (sameAhead.trans isAhead))
  rw [sameCurrent] at shifts
  have shiftedClosed := closed.of_append shifts.remaining
  have trails := takeTrail_skips (if state.started then state.line else 0) shiftedClosed
  rcases trails.trans (takeLead_skips (trails.closed shiftedClosed)) with ⟨comments, met, meets, only⟩
  exact ⟨comments, _, shifts.trans meets, only⟩

/-- At the end of the file, moving on changes nothing that the grammar can see. -/
theorem next_of_last (isLast : state.ahead = []) (notComment : state.current.token ≠ .comment) :
    state.next = { state with lead := none, trail := none, started := true } := by
  have shifted : ({ state with lead := none, trail := none } : ParseState).shift =
      { state with lead := none, trail := none, started := true } := by
    rw [shift]
    simp only [isLast]
  have noTrail (line : Nat) : ({ state with lead := none, trail := none, started := true } :
      ParseState).takeTrail line = { state with lead := none, trail := none, started := true } := by
    rw [takeTrail, if_neg]
    rw [Bool.and_eq_true, decide_eq_true_eq]
    exact fun isNear => notComment isNear.1
  rw [next, shifted, noTrail, takeLead, if_neg notComment]

/-- Whatever a parse does, it reports the faults of the lexemes that it meets. -/
theorem Reaches.faultless {earlier later : ParseState} (reaches : earlier.Reaches later)
    (ready : earlier.Ready) (clean : later.diagnostics = []) :
    ∃ met, earlier.ahead = met ++ later.ahead ∧ ∀ lexeme ∈ met, lexeme.faults = [] := by
  induction reaches with
  | refl => exact ⟨[], rfl, forall_mem_nil _⟩
  | amend _ amends ih =>
    rcases amends with ⟨notes, complaints, rfl⟩
    exact ih (append_eq_nil_iff.mp clean).2
  | @next state before ih =>
    have isReady := ready.reaches before
    by_cases isLast : state.ahead = []
    · rw [next_of_last isLast isReady.notComment] at clean ⊢
      exact ih clean
    · rcases next_meets isReady.closed isLast with ⟨comments, met, meets, _⟩
      rcases meets.clean.mp clean with ⟨cleanBefore, faultless⟩
      rcases ih cleanBefore with ⟨metBefore, ahead, faultlessBefore⟩
      refine ⟨metBefore ++ met, ?_, forall_mem_append.mpr ⟨faultlessBefore, faultless⟩⟩
      rw [ahead, meets.ahead, append_assoc]

end ParseState

/-! ## Files are read to their end -/

variable {filename text : Bytes} {source : ParsedFile}

/-- A file that is read without complaints has no lexeme with a fault. -/
theorem parseFile_faultless (parsed : parseFile filename text = .ok source) :
    ∀ lexeme ∈ (scanFile filename text).2, lexeme.faults = [] := by
  rcases parseFile_eq_ok parsed with ⟨_, _, origin, start, later, rfl, _, _, opens, declares, _,
    clean, isEnd⟩
  have ready := (Parse.initial_starts filename text).ready
  have reaches := ((ParseState.Reaches.refl _).next.trans opens).trans declares.reaches
  rcases ((ParseState.Reaches.refl _).next.trans reaches).faultless ready clean with
    ⟨met, ahead, faultless⟩
  have ended := scanFile_ended filename text
  have atEnd : later.ahead = [] := by
    have some : (scanFile filename text).2 ≠ [] := fun none => ended.ne_nil (none ▸ rfl)
    rcases ParseState.next_meets ready.closed some with ⟨comments, _, meets, _⟩
    rcases reaches.passes ready.next with ⟨passed, _, passes, _⟩
    have lexemes := meets.remaining
    rw [passes.remaining, ← append_assoc] at lexemes
    have lexemes : (scanFile filename text).2 = comments ++ passed ++ later.remaining :=
      (List.cons.inj lexemes).2
    rw [lexemes, map_append] at ended
    have last := ended.of_append (cons_ne_nil _ _)
    rw [ParseState.remaining, map_cons, isEnd] at last
    exact map_eq_nil_iff.mp last.eq_nil_of_eof
  rw [atEnd, append_nil] at ahead
  exact fun lexeme member => faultless lexeme (ahead ▸ member)

namespace LineDirective

theorem step_faultless {filename text : Bytes} {starts : List Nat} {state : LineTable × List Lexeme}
    {lexeme : Lexeme}
    (faultless : ∀ other ∈ (step filename text starts state lexeme).2, other.faults = []) :
    (step filename text starts state lexeme).2 = lexeme :: state.2 := by
  unfold step at faultless ⊢
  dsimp only at faultless ⊢
  split
  · rfl
  next isComment =>
    rw [if_neg isComment] at faultless
    split
    · rfl
    next found =>
      rw [found] at faultless
      dsimp only at faultless
      split
      · rfl
      next failed =>
        rw [failed] at faultless
        have impossible := (forall_mem_cons.mp faultless).1
        exact absurd (append_eq_nil_iff.mp impossible).2 (cons_ne_nil _ _)
      · split <;> rfl

/-- Line directives leave all lexemes as they are, or there is a fault. -/
theorem foldl_step_faultless {filename text : Bytes} {starts : List Nat} {lexemes : List Lexeme}
    {state : LineTable × List Lexeme}
    (faultless : ∀ lexeme ∈ (lexemes.foldl (step filename text starts) state).2, lexeme.faults = []) :
    (lexemes.foldl (step filename text starts) state).2 = lexemes.reverse ++ state.2 := by
  induction lexemes generalizing state with
  | nil => rfl
  | cons lexeme lexemes ih =>
    rw [foldl_cons] at faultless ⊢
    have rest := ih faultless
    rw [rest] at faultless ⊢
    rw [step_faultless (forall_mem_append.mp faultless).2, reverse_cons, append_assoc,
      singleton_append]

end LineDirective

theorem scanFile_of_faultless (faultless : ∀ lexeme ∈ (scanFile filename text).2, lexeme.faults = []) :
    (scanFile filename text).2 = Lexeme.scan text := by
  have lexemes : (scanFile filename text).2 = (List.foldl
    (LineDirective.step filename text (lineStarts text)) (LineTable.ofText filename text, [])
      (Lexeme.scan text)).2.reverse := rfl
  rw [lexemes] at faultless ⊢
  rw [LineDirective.foldl_step_faultless fun lexeme member =>
    faultless lexeme (mem_reverse.mpr member), append_nil, reverse_reverse]

/-- A file that is read without complaints has no faulty glyph. -/
theorem parseFile_glyphs (parsed : parseFile filename text = .ok source) :
    ∀ glyph ∈ Text.Utf8.glyphs text, glyphFault? glyph = none := by
  have faultless := parseFile_faultless parsed
  rw [scanFile_of_faultless faultless] at faultless
  exact Lexeme.glyphs_of_scan faultless

end Source
end CaseExpansion
