import CaseExpansion.Proofs.Source.Balance

namespace CaseExpansion
namespace Source

open List

/-!
# Whole expressions

A text that is read as an expression without complaints has no lexeme with a fault, its brackets are
balanced, and it ends with a line end or with a word after which a line end stands for a semicolon.
The comments of such a text are left out before it is read.
-/

namespace ParseState

theorem words_of_plain {state : ParseState}
    (plain : ∀ lexeme ∈ state.remaining, lexeme.token ≠ .comment) :
    state.words = state.remaining.map Lexeme.token := by
  rw [words, filter_eq_self]
  intro token member
  rcases mem_map.mp member with ⟨lexeme, remains, rfl⟩
  exact decide_eq_true (plain lexeme remains)

/-- Where there are no comments, moving on takes one lexeme. -/
theorem next_remaining {state : ParseState} (closed : state.Closed) (some : state.ahead ≠ [])
    (plain : ∀ lexeme ∈ state.ahead, lexeme.token ≠ .comment) : state.next.remaining = state.ahead := by
  rcases next_meets closed some with ⟨comments, _, meets, only⟩
  have ahead : state.ahead = comments ++ state.next.remaining := (List.cons.inj meets.remaining).2
  cases comments with
  | nil => exact ahead.symm
  | cons comment comments =>
    have isComment := only comment mem_cons_self
    exact absurd isComment (plain comment (ahead ▸ mem_cons_self))

theorem ahead_of_eof {state last : ParseState} (ready : state.Ready)
    (plain : ∀ lexeme ∈ state.ahead, lexeme.token ≠ .comment)
    (ended : Token.Ended (state.ahead.map Lexeme.token)) (reaches : state.next.Reaches last)
    (isEnd : last.current.token = .eof) : last.ahead = [] := by
  have some : state.ahead ≠ [] := fun none => ended.ne_nil (none ▸ rfl)
  rcases reaches.passes ready.next with ⟨passed, _, passes, _⟩
  have ahead := passes.remaining
  rw [next_remaining ready.closed some plain] at ahead
  rw [ahead, map_append] at ended
  have rest := ended.of_append (cons_ne_nil _ _)
  rw [remaining, map_cons, isEnd] at rest
  exact map_eq_nil_iff.mp rest.eq_nil_of_eof

end ParseState

namespace Parse

theorem withoutComments_plain (faults : List Fault) (lexemes : List Lexeme) :
    ∀ lexeme ∈ withoutComments faults lexemes, lexeme.token ≠ .comment := by
  induction lexemes generalizing faults with
  | nil => exact forall_mem_nil _
  | cons lexeme lexemes ih =>
    rw [withoutComments]
    split
    · exact ih _
    next notComment => exact forall_mem_cons.mpr ⟨notComment, ih _⟩

theorem withoutComments_tokens (faults : List Fault) (lexemes : List Lexeme) :
    (withoutComments faults lexemes).map Lexeme.token =
      (lexemes.map Lexeme.token).filter (· ≠ .comment) := by
  induction lexemes generalizing faults with
  | nil => rfl
  | cons lexeme lexemes ih =>
    rw [withoutComments, map_cons, filter_cons]
    split
    next isComment => rw [if_neg (by simp [isComment]), ih]
    next notComment => rw [if_pos (by simp [notComment]), map_cons, ih]

theorem withoutComments_ended (filename text : Bytes) :
    Token.Ended ((withoutComments [] (scanFile filename text).2).map Lexeme.token) := by
  rw [withoutComments_tokens]
  exact (scanFile_ended filename text).filter

/-- The faults of comments are passed on, so no fault is lost. -/
theorem faultless_of_withoutComments {faults : List Fault} {lexemes : List Lexeme}
    (ended : Token.Ended (lexemes.map Lexeme.token))
    (faultless : ∀ lexeme ∈ withoutComments faults lexemes, lexeme.faults = []) :
    faults = [] ∧ ∀ lexeme ∈ lexemes, lexeme.faults = [] := by
  induction lexemes generalizing faults with
  | nil => exact absurd ended id
  | cons lexeme lexemes ih =>
    rw [withoutComments] at faultless
    by_cases isComment : lexeme.token = .comment
    · rw [if_pos isComment] at faultless
      have endedLater : Token.Ended (lexemes.map Lexeme.token) := by
        cases lexemes with
        | nil => exact absurd (isComment.symm.trans ended) (by decide)
        | cons second rest => exact ended.2
      rcases ih endedLater faultless with ⟨none, rest⟩
      rcases append_eq_nil_iff.mp none with ⟨noneBefore, noneHere⟩
      exact ⟨noneBefore, forall_mem_cons.mpr ⟨noneHere, rest⟩⟩
    · rw [if_neg isComment] at faultless
      rcases forall_mem_cons.mp faultless with ⟨none, faultless⟩
      rcases append_eq_nil_iff.mp none with ⟨noneBefore, noneHere⟩
      refine ⟨noneBefore, forall_mem_cons.mpr ⟨noneHere, ?_⟩⟩
      cases lexemes with
      | nil => exact forall_mem_nil _
      | cons second rest => exact (ih ended.2 faultless).2

/-- Where nothing is complained about, an expression is followed by the end of the text, or by a
line end there. -/
theorem wholeExpr_gives {grammar : Grammar} {state later : ParseState} {result : Expr}
    (gives : (wholeExpr grammar).Gives state result later) (nests : grammar.Nests) (ready : state.Ready)
    (clean : later.diagnostics = []) :
    ∃ middle last, Token.Takes .closed [] [] state.next.words middle.words ∧ state.next.Reaches middle ∧
      (middle.current.isLineEnd = true ∧ middle.next = last ∨ middle = last) ∧
      last.current.token = .eof ∧ last.next = later := by
  unfold wholeExpr at gives
  replace gives := gives.after rfl
  rcases gives_bind.mp gives with ⟨expr, middle, operandGives, gives⟩
  have isReady := ready.next.reaches operandGives.reaches
  have takes : Token.Takes .closed [] [] _ _ := nests_operand nests state.next ready.next operandGives
    (gives.reaches.clean isReady clean)
  rcases gives_bind.mp gives with ⟨atLineEnd, _, looked, gives⟩
  rcases gives_look.mp looked with ⟨isLineEnd, rfl⟩
  dsimp only at gives
  split at gives
  next holds =>
    replace gives := gives.after rfl
    rcases gives_bind.mp gives with ⟨_, _, expected, gives⟩
    rcases gives_pure.mp gives with ⟨_, rfl⟩
    rcases expect_gives expected isReady.next clean with ⟨isEnd, _, isLater⟩
    exact ⟨middle, _, takes, operandGives.reaches, .inl ⟨isLineEnd.trans holds, rfl⟩, isEnd, isLater⟩
  next =>
    rcases gives_bind.mp gives with ⟨_, _, expected, gives⟩
    rcases gives_pure.mp gives with ⟨_, rfl⟩
    rcases expect_gives expected isReady clean with ⟨isEnd, _, isLater⟩
    exact ⟨middle, _, takes, operandGives.reaches, .inr rfl, isEnd, isLater⟩

theorem initial_ready {table : LineTable} {lexemes : List Lexeme}
    (ended : Token.Ended (lexemes.map Lexeme.token)) : (initial table lexemes).Ready := by
  refine ⟨?_, (by decide : Token.eof ≠ .comment), fun _ impossible => nomatch impossible⟩
  have some : lexemes ≠ [] := fun none => ended.ne_nil (none ▸ rfl)
  rw [ParseState.Closed, ParseState.remaining, ← singleton_append, initial,
    getLast?_append_of_ne_nil _ some, ← getLast?_map]
  exact ended.getLast?

end Parse

section Expressions

variable {text : Bytes} {expr : Expr} (parsed : parseExpr text = .ok expr)

include parsed

theorem parseExpr_gives :
    ∃ state later : ParseState, state.ahead = Parse.withoutComments [] (scanFile [] text).2 ∧
      state.Ready ∧ (Parse.wholeExpr (Grammar.ofDepth (Parse.depthFor state.ahead))).Gives state
        expr later ∧
      later.diagnostics = [] := by
  unfold parseExpr at parsed
  rcases Parse.runOn_eq_ok parsed with ⟨later, gives, clean⟩
  exact ⟨_, later, rfl, Parse.initial_ready (Parse.withoutComments_ended [] text), gives, clean⟩

theorem parseExpr_faultless : ∀ lexeme ∈ (scanFile [] text).2, lexeme.faults = [] := by
  rcases parseExpr_gives parsed with ⟨state, later, ahead, ready, gives, clean⟩
  rcases Parse.wholeExpr_gives gives (Grammar.nests_ofDepth _) ready clean with
    ⟨middle, last, _, reaches, lineEnd, isEnd, rfl⟩
  have plain : ∀ lexeme ∈ state.ahead, lexeme.token ≠ .comment :=
    ahead ▸ Parse.withoutComments_plain [] _
  have ended : Token.Ended (state.ahead.map Lexeme.token) := ahead ▸ Parse.withoutComments_ended [] text
  have further : state.next.Reaches last := by
    rcases lineEnd with ⟨_, rfl⟩ | rfl
    · exact reaches.next
    · exact reaches
  have isLast := ParseState.ahead_of_eof ready plain ended further isEnd
  rcases gives.reaches.faultless ready clean with ⟨met, allMet, faultless⟩
  rw [ParseState.next_of_last isLast (ready.next.reaches further).notComment] at allMet
  have isMet : state.ahead = met := by rw [allMet, isLast, append_nil]
  refine (@Parse.faultless_of_withoutComments [] _ (scanFile_ended [] text) ?_).2
  exact ahead ▸ isMet ▸ faultless

/-- The words of an expression are followed by a line end or by nothing, and then by the end of the
text. -/
theorem parseExpr_words :
    ∃ inner lineEnds eof, Parse.withoutComments [] (scanFile [] text).2 = inner ++ lineEnds ++ [eof] ∧
      Token.due? [] (inner.map Lexeme.token) = some [] ∧
      Ending.closed.allows (inner.map Lexeme.token) = true ∧
      (lineEnds = [] ∨ ∃ lineEnd, lineEnds = [lineEnd] ∧ lineEnd.isLineEnd = true) ∧
      eof.token = .eof := by
  rcases parseExpr_gives parsed with ⟨state, later, ahead, ready, gives, clean⟩
  rcases Parse.wholeExpr_gives gives (Grammar.nests_ofDepth _) ready clean with
    ⟨middle, last, ⟨taken, words, balanced, closes⟩, reaches, lineEnd, isEnd, _⟩
  have plain : ∀ lexeme ∈ state.ahead, lexeme.token ≠ .comment :=
    ahead ▸ Parse.withoutComments_plain [] _
  have ended : Token.Ended (state.ahead.map Lexeme.token) := ahead ▸ Parse.withoutComments_ended [] text
  have some : state.ahead ≠ [] := fun none => ended.ne_nil (none ▸ rfl)
  rcases reaches.passes ready.next with ⟨inner, _, passes, _⟩
  have lexemes := passes.remaining
  have plainMiddle : ∀ lexeme ∈ middle.remaining, lexeme.token ≠ .comment := by
    intro lexeme member
    refine plain lexeme ?_
    rw [← ParseState.next_remaining ready.closed some plain, lexemes]
    exact mem_append_right inner member
  -- Without comments the words that were taken are those of the lexemes that were passed.
  have isTaken : inner.map Lexeme.token = taken := by
    rw [ParseState.words_of_plain plainMiddle, ParseState.words_of_plain, lexemes, map_append] at words
    · exact append_cancel_right words
    · exact (ParseState.next_remaining ready.closed some plain).symm ▸ plain
  rw [ParseState.next_remaining ready.closed some plain] at lexemes
  rw [← isTaken] at balanced closes
  rw [← ahead, lexemes]
  rcases lineEnd with ⟨isLineEnd, rfl⟩ | rfl
  · have isLast := ParseState.ahead_of_eof ready plain ended reaches.next isEnd
    have goesOn : middle.ahead ≠ [] := fun none => by
      rw [Lexeme.isLineEnd, (ready.next.reaches reaches).closed.token_eq none] at isLineEnd
      cases isLineEnd
    have rest := ParseState.next_remaining (ready.next.reaches reaches).closed goesOn fun lexeme member =>
      plainMiddle lexeme (mem_cons_of_mem _ member)
    rw [ParseState.remaining, isLast] at rest
    refine ⟨inner, [middle.current], middle.next.current, ?_, balanced, closes,
      .inr ⟨_, rfl, isLineEnd⟩, isEnd⟩
    rw [ParseState.remaining, ← rest, append_assoc, singleton_append]
  · have isLast := ParseState.ahead_of_eof ready plain ended reaches isEnd
    refine ⟨inner, [], middle.current, ?_, balanced, closes, .inl rfl, isEnd⟩
    rw [ParseState.remaining, isLast, append_nil]

/-- The last lexeme before the end of an expression is a line end, or a line end would stand for a
semicolon there. -/
theorem parseExpr_last :
    ∃ front last eof, Parse.withoutComments [] (scanFile [] text).2 = front ++ [last, eof] ∧
      (last.isLineEnd = true ∨ Lexeme.endsStatement last.token = true) := by
  rcases parseExpr_words parsed with
    ⟨inner, _, eof, lexemes, _, closes, none | ⟨lineEnd, one, isLineEnd⟩, _⟩
  · subst none
    rcases eq_nil_or_concat inner with rfl | ⟨front, last, rfl⟩
    · cases closes
    · refine ⟨front, last, eof, lexemes.trans ?_, .inr ?_⟩
      · rw [append_nil, concat_eq_append, append_assoc, singleton_append]
      · simpa [Ending.allows] using closes
  · subst one
    refine ⟨inner, lineEnd, eof, lexemes.trans ?_, .inl isLineEnd⟩
    rw [append_assoc, singleton_append]

theorem parseExpr_balanced :
    Token.Balanced ((Parse.withoutComments [] (scanFile [] text).2).map Lexeme.token) := by
  rcases parseExpr_words parsed with
    ⟨inner, _, eof, lexemes, balanced, _, none | ⟨lineEnd, one, isLineEnd⟩, isEnd⟩
  · rw [lexemes, none, append_nil, map_append, Token.Balanced, Token.due?_append_of balanced,
      map_singleton, isEnd]
    rfl
  · have isSemicolon : lineEnd.token = .semicolon := by
      rw [Lexeme.isLineEnd, Bool.and_eq_true] at isLineEnd
      exact eq_of_beq isLineEnd.1
    rw [lexemes, one, append_assoc, map_append, Token.Balanced, Token.due?_append_of balanced,
      singleton_append, map_cons, map_singleton, isSemicolon, isEnd]
    rfl

end Expressions
end Source
end CaseExpansion
