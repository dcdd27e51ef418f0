import CaseExpansion.Proofs.Source.Words

namespace CaseExpansion
namespace Source

open List

/-!
# Brackets and the ends of types

An expression that is read without complaints has balanced brackets: every bracket that opens in
it is closed in it, by one of its own kind and in the proper order.  Its last word is one after which
a line end stands for a semicolon: a name, a literal or a closing bracket.  The grammar has no place
that counts brackets or looks back at the last word.  That both hold follows from what each parser
takes, and so every parser that an expression can lead to is looked at here, those for statements
included, since an expression may hold the body of a function.

`Parse.Nests` tells of a parser which closing brackets are due before it and after it, and what is
known of the last word that it takes.  Most parsers leave the brackets as they are.  Some may take no
word at all, such as the one for the results of a function type.
-/

/-! ## Words and brackets -/

namespace Token

/-- The bracket that closes what the token opens. -/
def partner? : Token → Option Token
  | lparen => some rparen
  | lbrack => some rbrack
  | lbrace => some rbrace
  | _ => none

/-- Whether the token closes a bracket. -/
def isClosing : Token → Bool
  | rparen | rbrack | rbrace => true
  | _ => false

/-- The closing brackets that are due after a word, innermost first.  A closing bracket has to be
the one that is due. -/
def dueAfter? (due : List Token) (word : Token) : Option (List Token) :=
  match word.partner? with
  | some closing => some (closing :: due)
  | none =>
    if word.isClosing then
      if due.head? = some word then some due.tail else none
    else some due

/-- The closing brackets that are due after some words. -/
def due? (due words : List Token) : Option (List Token) :=
  words.foldlM dueAfter? due

/-- All brackets that open are closed, and no others. -/
def Balanced (words : List Token) : Prop :=
  due? [] words = some []

instance (words : List Token) : Decidable (Balanced words) :=
  inferInstanceAs (Decidable (_ = _))

theorem due?_cons (due : List Token) (word : Token) (words : List Token) :
    due? due (word :: words) = (dueAfter? due word).bind fun left => due? left words :=
  foldlM_cons

theorem due?_append (due front back : List Token) :
    due? due (front ++ back) = (due? due front).bind fun left => due? left back :=
  foldlM_append

theorem due?_append_of {due left front : List Token} (reads : due? due front = some left)
    (back : List Token) : due? due (front ++ back) = due? left back := by
  rw [due?_append, reads, Option.bind_some]

theorem due?_singleton (due : List Token) (word : Token) : due? due [word] = dueAfter? due word := by
  rw [due?_cons]
  cases dueAfter? due word <;> rfl

theorem dueAfter?_of_precedence {word : Token} (isOperator : 1 ≤ word.precedence) (due : List Token) :
    dueAfter? due word = some due := by
  cases word <;> first | rfl | exact absurd isOperator (by decide)

theorem dueAfter?_of_isAssignment {word : Token} (assigns : word.isAssignment = true)
    (due : List Token) : dueAfter? due word = some due := by
  cases word <;> first | rfl | cases assigns

end Token

/-! ## The last word -/

/-- What is known of the last of some words. -/
inductive Ending where
  /-- There is one, and it can end a statement. -/
  | closed
  /-- If `kept` holds, the last one can end a statement if there is one. -/
  | loose (kept : Bool)

namespace Ending

/-- Nothing is known. -/
abbrev any : Ending := loose false

/-- What is known if some words have been taken before. -/
def ofGiven : (given : Bool) → Ending
  | true => loose true
  | false => closed

/-- What has to be known of further words so that an ending does not change. -/
def rest : Ending → Ending
  | closed => loose true
  | loose kept => loose kept

/-- Whether words have an ending. -/
def allows : Ending → List Token → Bool
  | closed, words => words.getLast?.any Lexeme.endsStatement
  | loose kept, words => !kept || words.getLast?.all Lexeme.endsStatement

variable {ending : Ending} {words more : List Token}

theorem allows_of_closed (closes : closed.allows words = true) : ending.allows words = true := by
  cases last : words.getLast? <;> cases ending <;> simp_all [allows]

theorem allows_append_rest (first : ending.allows words = true)
    (second : ending.rest.allows more = true) : ending.allows (words ++ more) = true := by
  cases last : more.getLast? <;> cases ending <;> simp_all [allows, rest, getLast?_append]

theorem allows_append_closed (second : closed.allows more = true) :
    closed.allows (words ++ more) = true := by
  cases last : more.getLast? <;> simp_all [allows, getLast?_append]

theorem allows_append (first : (loose true).allows words = true) (second : ending.allows more = true) :
    ending.allows (words ++ more) = true := by
  cases last : more.getLast? <;> cases ending <;> simp_all [allows, getLast?_append]

end Ending

/-- Some words are taken, after which the last one is as told, and the due brackets change as told. -/
def Token.Takes (ending : Ending) (due left words later : List Token) : Prop :=
  ∃ taken, words = taken ++ later ∧ due? due taken = some left ∧ ending.allows taken = true

namespace Token.Takes

variable {first second ending : Ending} {due between left words middle later : List Token}

theorem none (kept : Bool) : Takes (.loose kept) due due words words :=
  ⟨[], rfl, rfl, Bool.or_true _⟩

theorem of_closed (takes : Takes .closed due left words later) : Takes ending due left words later := by
  rcases takes with ⟨taken, rfl, reads, ends⟩
  exact ⟨taken, rfl, reads, Ending.allows_of_closed ends⟩

theorem relax (takes : Takes ending due left words later) : Takes .any due left words later := by
  rcases takes with ⟨taken, rfl, reads, _⟩
  exact ⟨taken, rfl, reads, rfl⟩

/-- Words that are taken one after the other are taken together. -/
theorem append (early : Takes first due between words middle)
    (late : Takes second between left middle later)
    (joins : ∀ {words more : List Token}, first.allows words = true → second.allows more = true →
      ending.allows (words ++ more) = true) : Takes ending due left words later := by
  rcases early with ⟨taken, rfl, reads, ends⟩
  rcases late with ⟨more, rfl, readsMore, endsMore⟩
  refine ⟨taken ++ more, (append_assoc _ _ _).symm, ?_, joins ends endsMore⟩
  rw [due?_append_of reads, readsMore]

end Token.Takes

namespace ParseState

/-- Before the end of the text, moving on takes one word. -/
theorem words_eq_cons {state : ParseState} (ready : state.Ready) (some : state.ahead ≠ []) :
    state.words = state.current.token :: state.next.words := by
  rcases next_meets ready.closed some with ⟨comments, _, meets, only⟩
  have rest : state.ahead = comments ++ state.next.remaining := (List.cons.inj meets.remaining).2
  have none : (comments.map Lexeme.token).filter (· ≠ .comment) = [] := by
    rw [filter_eq_nil_iff]
    intro token member
    rcases mem_map.mp member with ⟨lexeme, isComment, rfl⟩
    rw [decide_eq_true_eq, not_not]
    exact only lexeme isComment
  rw [words_of_notComment ready.notComment, rest, map_append, filter_append, none,
    nil_append, words]

/-- At the end of the text, moving on takes nothing. -/
theorem words_next_of_last {state : ParseState} (ready : state.Ready) (isLast : state.ahead = []) :
    state.next.words = state.words := by
  rw [next_of_last isLast ready.notComment]
  rfl

end ParseState

namespace Parse

open ParseState (Ready)
open Token (Takes dueAfter? due?)

/-- If a parser does not complain in a state, the brackets that are due before the words that it
takes and after them are the given ones, and so is what is known of the last word. -/
def NestsFrom {α : Type} (ending : Ending) (state : ParseState) (due left : List Token)
    (parser : Parse α) : Prop :=
  ∀ ⦃later : ParseState⦄ ⦃result : α⦄, state.Ready → parser.Gives state result later →
    later.diagnostics = [] → Takes ending due left state.words later.words

/-- A parser that does not complain takes the due brackets from the first ones to the others. -/
def Nests {α : Type} (ending : Ending) (due left : List Token) (parser : Parse α) : Prop :=
  ∀ state, NestsFrom ending state due left parser

/-- A parser of something optional takes a last word that can end a statement, unless it gives
nothing. -/
def NestsIf {α : Type} (due : List Token) (parser : Parse (Option α)) : Prop :=
  ∀ ⦃state later : ParseState⦄ ⦃result : Option α⦄, state.Ready → parser.Gives state result later →
    later.diagnostics = [] → Takes (.ofGiven result.isNone) due due state.words later.words

section Rules

variable {α β : Type} {first second ending : Ending} {kept : Bool} {due middle left : List Token}
  {state : ParseState}

theorem NestsFrom.of_closed {parser : Parse α} (closes : NestsFrom .closed state due left parser) :
    NestsFrom ending state due left parser :=
  fun _ _ ready gives clean => (closes ready gives clean).of_closed

theorem Nests.of_closed {parser : Parse α} (closes : Nests .closed due left parser) :
    Nests ending due left parser :=
  fun state => (closes state).of_closed

theorem Nests.relax {parser : Parse α} (nests : Nests ending due left parser) :
    Nests .any due left parser :=
  fun state _ _ ready gives clean => (nests state ready gives clean).relax

theorem Nests.nestsIf {parser : Parse (Option α)} (closes : Nests .closed due due parser) :
    NestsIf due parser :=
  fun state _ _ ready gives clean => (closes state ready gives clean).of_closed

/-! ## Sequences -/

theorem NestsFrom.append {parser : Parse α} {rest : α → Parse β}
    (ofFirst : NestsFrom first state due middle parser)
    (ofRest : ∀ value, Nests second middle left (rest value))
    (joins : ∀ {words more : List Token}, first.allows words = true → second.allows more = true →
      ending.allows (words ++ more) = true) : NestsFrom ending state due left (parser >>= rest) := by
  intro later result ready gives clean
  rcases gives_bind.mp gives with ⟨value, between, firstGives, restGives⟩
  have isReady := ready.reaches firstGives.reaches
  have firstTakes := ofFirst ready firstGives (restGives.reaches.clean isReady clean)
  exact firstTakes.append (ofRest value between isReady restGives clean) joins

variable {parser : Parse α} {rest : α → Parse β} {word wanted : Token}

theorem NestsFrom.bind (ofFirst : NestsFrom ending state due middle parser)
    (ofRest : ∀ value, Nests ending.rest middle left (rest value)) :
    NestsFrom ending state due left (parser >>= rest) :=
  ofFirst.append ofRest Ending.allows_append_rest

theorem Nests.bind {parser : Parse α} {rest : α → Parse β} (ofFirst : Nests ending due middle parser)
    (ofRest : ∀ value, Nests ending.rest middle left (rest value)) :
    Nests ending due left (parser >>= rest) :=
  fun state => (ofFirst state).bind ofRest

/-- What comes before a last word is of no concern. -/
theorem NestsFrom.after (ofFirst : NestsFrom .any state due middle parser)
    (ofRest : ∀ value, Nests .closed middle left (rest value)) :
    NestsFrom .closed state due left (parser >>= rest) :=
  ofFirst.append ofRest fun _ => Ending.allows_append_closed

theorem Nests.after {parser : Parse α} {rest : α → Parse β} (ofFirst : Nests .any due middle parser)
    (ofRest : ∀ value, Nests .closed middle left (rest value)) :
    Nests .closed due left (parser >>= rest) :=
  fun state => (ofFirst state).after ofRest

theorem Nests.pass (ofFirst : Nests (.loose true) due middle parser)
    (ofRest : ∀ value, Nests ending middle left (rest value)) :
    Nests ending due left (parser >>= rest) :=
  fun state => (ofFirst state).append ofRest Ending.allows_append

theorem NestsIf.bind {parser : Parse (Option α)} {rest : Option α → Parse β}
    (ofFirst : NestsIf due parser)
    (ofSome : ∀ value, Nests ending.rest due left (rest (some value)))
    (ofNone : Nests ending due left (rest none)) : Nests ending due left (parser >>= rest) := by
  intro state later result ready gives clean
  rcases gives_bind.mp gives with ⟨value?, between, firstGives, restGives⟩
  have isReady := ready.reaches firstGives.reaches
  have firstTakes := ofFirst ready firstGives (restGives.reaches.clean isReady clean)
  cases value? with
  | some value =>
    exact (Takes.of_closed firstTakes).append (ofSome value between isReady restGives clean)
      Ending.allows_append_rest
  | none => exact firstTakes.append (ofNone between isReady restGives clean) Ending.allows_append

/-! ## Parsers that take nothing -/

theorem nests_pure (value : α) : Nests (.loose kept) due due (pure value : Parse α) := by
  intro state later result _ gives _
  rcases gives_pure.mp gives with ⟨_, rfl⟩
  exact .none kept

/-- What is made of the result in the end takes nothing. -/
theorem NestsFrom.returning {result : α → β} (ofParser : NestsFrom ending state due left parser) :
    NestsFrom ending state due left (parser >>= fun value => pure (result value)) := by
  cases ending <;> exact ofParser.bind fun _ => nests_pure _

theorem Nests.returning {parser : Parse α} {result : α → β} (ofParser : Nests ending due left parser) :
    Nests ending due left (parser >>= fun value => pure (result value)) :=
  fun state => (ofParser state).returning

theorem NestsFrom.look {look : ParseState → α} {rest : α → Parse β}
    (ofRest : NestsFrom ending state due left (rest (look state))) :
    NestsFrom ending state due left ((do return look (← get)) >>= rest) := by
  intro later result ready gives clean
  have restGives := gives.after rfl
  exact ofRest ready restGives clean

theorem NestsFrom.get {rest : ParseState → Parse β}
    (ofRest : NestsFrom ending state due left (rest state)) :
    NestsFrom ending state due left (Parse.get >>= rest) := by
  intro later result ready gives clean
  have restGives := gives.after rfl
  exact ofRest ready restGives clean

theorem Nests.look {look : ParseState → α} {rest : α → Parse β}
    (ofRest : ∀ value, Nests ending due left (rest value)) :
    Nests ending due left ((do return look (← Parse.get)) >>= rest) :=
  fun state => .look (ofRest _ state)

theorem nests_look {look : ParseState → α} : Nests (.loose kept) due due (do return look (← get)) := by
  intro state later result _ gives _
  rcases gives_look.mp gives with ⟨_, rfl⟩
  exact .none kept

theorem nests_note (change : ParseNotes → ParseNotes) : Nests (.loose kept) due due (note change) := by
  intro state later result _ gives _
  cases gives
  exact .none kept

theorem nests_complaint (place : Nat) (message : Bytes) :
    Nests ending due left (complain place message) :=
  fun _ _ _ _ gives clean => absurd clean (complain_gives gives)

/-- After a complaint nothing is left to show. -/
theorem nests_of_complaint
    (complains : ∀ {state later : ParseState} {value : α}, parser.Gives state value later →
      later.diagnostics ≠ []) :
    Nests ending due left (parser >>= rest) := by
  intro state later result ready gives clean
  rcases gives_bind.mp gives with ⟨_, _, complained, restGives⟩
  have isReady := ready.reaches complained.reaches
  exact absurd (restGives.reaches.clean isReady clean) (complains complained)

theorem nests_complain {rest : Unit → Parse β} (place : Nat) (message : Bytes) :
    Nests ending due left (complain place message >>= rest) :=
  nests_of_complaint complain_gives

theorem nests_complainExpected {rest : Unit → Parse β} (place : Nat) (wanted : Bytes) :
    Nests ending due left (complainExpected place wanted >>= rest) :=
  nests_of_complaint complainExpected_gives

/-! ## Parsers that take a lexeme -/

theorem nestsFrom_next (reads : dueAfter? due state.current.token = some left) :
    NestsFrom .any state due left next := by
  intro later result ready gives _
  rcases gives_next.mp gives with rfl
  by_cases isLast : state.ahead = []
  · rw [ready.closed.token_eq isLast] at reads
    exact ⟨[], (ParseState.words_next_of_last ready isLast).symm, reads, rfl⟩
  · refine ⟨[state.current.token], ParseState.words_eq_cons ready isLast, ?_, rfl⟩
    rw [Token.due?_singleton, reads]

/-- Moving on after the current word has been looked at. -/
theorem nestsFrom_next_at (isAt : (state.current.token == word) = true)
    (reads : dueAfter? due word = some left) : NestsFrom .any state due left next := by
  rw [← eq_of_beq isAt] at reads
  exact nestsFrom_next reads

theorem nestsFrom_next_of (isWord : state.current.token = word)
    (reads : dueAfter? due word = some left) : NestsFrom .any state due left next :=
  nestsFrom_next (isWord ▸ reads)

/-- Moving on past a word that can end a statement. -/
theorem nestsFrom_next_closed (isAt : state.current.token = word)
    (isEnd : Lexeme.endsStatement word = true)
    (reads : dueAfter? due word = some left) : NestsFrom .closed state due left next := by
  intro later result ready gives _
  subst isAt
  rcases gives_next.mp gives with rfl
  have goesOn : state.ahead ≠ [] := fun isLast => by
    rw [ready.closed.token_eq isLast] at isEnd
    cases isEnd
  refine ⟨[state.current.token], ParseState.words_eq_cons ready goesOn, ?_, isEnd⟩
  rw [Token.due?_singleton, reads]

theorem nests_expect (reads : dueAfter? due wanted = some left) :
    Nests .any due left (expect wanted) := by
  intro state later result ready gives clean
  rcases expect_gives gives ready clean with ⟨rfl, _, rfl⟩
  exact nestsFrom_next reads ready (gives_next.mpr rfl) clean

theorem nests_expect_closed (isEnd : Lexeme.endsStatement wanted = true)
    (reads : dueAfter? due wanted = some left) : Nests .closed due left (expect wanted) := by
  intro state later result ready gives clean
  rcases expect_gives gives ready clean with ⟨isWanted, _, rfl⟩
  exact nestsFrom_next_closed isWanted isEnd reads ready (gives_next.mpr rfl) clean

theorem nests_expectClosing (isEnd : Lexeme.endsStatement wanted = true)
    (reads : dueAfter? due wanted = some left)
    (context : Bytes) : Nests .closed due left (expectClosing wanted context) := by
  unfold expectClosing
  refine .look fun found => .look fun isLineEnd => ?_
  dsimp only
  split
  · exact .look fun _ => nests_complain _ _
  · exact nests_expect_closed isEnd reads

theorem nests_expectSemicolon : Nests .any due due expectSemicolon := by
  intro state
  unfold expectSemicolon
  refine .look ?_
  split
  · exact nests_pure _ state
  refine .look ?_
  split
  next isAtEither =>
    refine .look ?_
    dsimp only
    split
    · exact .look (nests_complainExpected _ _ state)
    next notComma =>
      have isSemicolon : dueAfter? due state.current.token = some due := by
        have either := contains_iff_mem.mp isAtEither
        rcases mem_pair.mp either with isComma | isSemicolon
        · rw [isComma]
          rfl
        · rw [isSemicolon]
          rfl
      refine .look ?_
      split
      · exact (nestsFrom_next isSemicolon).bind fun _ => nests_look
      · exact .look ((nestsFrom_next isSemicolon).returning)
  · exact .look (nests_complainExpected _ _ state)

theorem nests_ident : Nests ending due due ident := by
  refine .of_closed fun state => ?_
  unfold ident
  refine .get ?_
  dsimp only
  split
  next isName => exact (nestsFrom_next_closed isName rfl rfl).returning
  next => exact ((nests_expect_closed rfl rfl).returning) state

/-- Where nothing is complained about, a list goes on only at a comma. -/
theorem atComma_gives {later : ParseState} {context : Bytes} {follow : Token} {goesOn : Bool}
    (gives : (atComma context follow).Gives state goesOn later) (clean : later.diagnostics = []) :
    state = later ∧ (goesOn = true → state.current.token = .comma) := by
  unfold atComma at gives
  replace gives := gives.after rfl
  split at gives
  next isComma => exact ⟨(gives_pure.mp gives).2, fun _ => eq_of_beq isComma⟩
  next =>
    replace gives := gives.after rfl
    split at gives
    next =>
      rcases gives_pure.mp gives with ⟨rfl, same⟩
      exact ⟨same, fun impossible => absurd impossible Bool.false_ne_true⟩
    next =>
      rcases gives_bind.mp gives with ⟨_, _, _, gives⟩
      rcases gives_bind.mp gives with ⟨_, _, _, gives⟩
      rcases gives_bind.mp gives with ⟨_, _, complained, gives⟩
      rcases gives_pure.mp gives with ⟨_, rfl⟩
      exact absurd clean (complain_gives complained)

theorem nests_atComma {rest : Bool → Parse β} {context : Bytes} {follow : Token}
    (goesOn : ∀ state, state.current.token = .comma → NestsFrom ending state due left (rest true))
    (isDone : Nests ending due left (rest false)) :
    Nests ending due left (atComma context follow >>= rest) := by
  intro state later result ready gives clean
  rcases gives_bind.mp gives with ⟨again, middle, looked, restGives⟩
  have cleanBefore := restGives.reaches.clean (ready.reaches looked.reaches) clean
  rcases atComma_gives looked cleanBefore with ⟨rfl, isComma⟩
  cases again with
  | true => exact goesOn state (isComma rfl) ready restGives clean
  | false => exact isDone state ready restGives clean

/-! ## Loops and changed notes -/

/-- A loop leaves the due brackets as every round of it does. -/
theorem Nests.loop {σ : Type} {step : σ → Parse (Round σ β)}
    (ofStep : ∀ value, Nests (.loose kept) due due (step value)) (first : σ) :
    Nests (.loose kept) due due (loop first step) := by
  intro state later result ready gives clean
  let invariant (_ : σ) (before : ParseState) : Prop := state.Reaches before ∧
    (before.diagnostics = [] → Takes (.loose kept) due due state.words before.words)
  have further {value : σ} {before after : ParseState} {round : Round σ β}
      (holds : invariant value before)
      (stepped : (step value).Gives before round after) (cleanAfter : after.diagnostics = []) :
      Takes (.loose kept) due due state.words after.words := by
    have isReady := ready.reaches holds.1
    have taken := holds.2 (stepped.reaches.clean isReady cleanAfter)
    exact taken.append (ofStep value before isReady stepped cleanAfter) Ending.allows_append_rest
  have start : invariant first state := ⟨.refl state, fun _ => .none kept⟩
  have last := loop_gives (fun holds stepped => ⟨holds.1.trans stepped.reaches, further holds stepped⟩)
    start gives
  rcases last with ⟨value, before, holds, done⟩
  exact further holds done clean

theorem Nests.many {more : Parse Bool} {item : Parse α} (ofMore : Nests .any due due more)
    (ofItem : Nests .any due due item) : Nests .any due due (Parse.many more item) := by
  refine (Nests.loop (fun items => ofMore.bind fun goesOn => ?_) []).returning
  split
  · exact ofItem.returning
  · exact nests_pure _

theorem Nests.manyAfter {item : Parse α} (reads : dueAfter? due word = some due)
    (ofItem : Nests .any due due item) :
    Nests .any due due (Parse.many (isAt word) (next >>= fun _ => item)) := by
  refine (Nests.loop (fun items state => .look ?_) []).returning
  split
  next isAt =>
    exact ((nestsFrom_next_at isAt reads).bind fun _ => ofItem).returning
  next => exact nests_pure _ state

/-- Notes are set back after a parser. -/
theorem nests_restore (change : ParseNotes → ParseNotes) (value : α) :
    Nests ending.rest due due (note change >>= fun _ => pure value) := by
  cases ending <;> exact (nests_note change).bind fun _ => nests_pure value

theorem nestsFrom_withLevel {change : Int → Int}
    (ofParser : ∀ notes, NestsFrom ending { state with notes } due left parser) :
    NestsFrom ending state due left (withLevel change parser) := by
  refine .get ?_
  intro later result ready gives clean
  rcases gives_bind.mp gives with ⟨_, _, noted, restGives⟩
  have isReady := ready.reaches noted.reaches
  cases noted
  have ofAll := ofParser { state.notes with level := change state.notes.level }
  refine ofAll.bind (fun value => nests_restore _ value) isReady restGives clean

theorem Nests.withLevel {parser : Parse α} (ofParser : Nests ending due left parser)
    (change : Int → Int) : Nests ending due left (withLevel change parser) :=
  fun _ => nestsFrom_withLevel fun _ => ofParser _

theorem Nests.nested {parser : Parse α} (ofParser : Nests ending due due parser) :
    Nests ending due due (nested parser) :=
  ofParser.withLevel (· + 1)

theorem Nests.withOperand {parser : Parse α} (ofParser : Nests ending due left parser)
    (inOperand : Bool) : Nests ending due left (withOperand inOperand parser) := by
  intro state
  refine .get ?_
  exact (nests_note _).pass (fun _ => ofParser.bind fun result => nests_restore _ result) state

end Rules

end Parse

/-- The recursive parsers of a grammar leave the due brackets as they are, and those for expressions and
types take a last word that can end a statement. -/
structure Grammar.Nests (grammar : Grammar) : Prop where
  binary {ending : Ending} {precedence : Nat} (some : 1 ≤ precedence) (due : List Token) :
    Parse.Nests ending due due (grammar.binary precedence)
  unary {ending : Ending} (due : List Token) : Parse.Nests ending due due grammar.unary
  type? (due : List Token) : Parse.NestsIf due grammar.type?
  literalValue {ending : Ending} (type : Option Expr) (due : List Token) :
    Parse.Nests ending due due (grammar.literalValue type)
  statement (due : List Token) : Parse.Nests .any due due grammar.statement
  ifStatement (due : List Token) : Parse.Nests .any due due grammar.ifStatement

namespace Parse

open Token (Takes dueAfter? due?)

/-! ## Types -/

section Types

variable {grammar : Grammar} {ending : Ending} {kept : Bool} {due : List Token} (nests : grammar.Nests)

include nests

theorem nests_expr : Nests ending due due grammar.expr :=
  nests.binary (Nat.le_refl 1) due

theorem nests_operand : Nests ending due due grammar.operand :=
  (nests_expr nests).withOperand true

theorem nests_exprs (inOperand : Bool) : Nests .any due due (grammar.exprs inOperand) := by
  refine Nests.withOperand ((nests_expr nests).bind fun first => ?_) inOperand
  exact (Nests.manyAfter rfl (nests_expr nests)).returning

theorem nests_type : Nests ending due due (type grammar) := by
  refine .of_closed ((nests.type? due).bind (fun _ => ?_) ?_)
  · exact nests_pure _
  · exact .look fun _ => nests_complainExpected _ _

omit nests in
theorem nests_typeName (first : Option Ident) :
    Nests (.ofGiven first.isSome) due due (typeName first) := by
  unfold typeName
  extract_lets rest
  have ofRest (name : Ident) : Nests (.loose true) due due (rest name) := by
    refine fun state => .look ?_
    split
    next isPeriod =>
      exact ((nestsFrom_next_at isPeriod rfl).after fun _ => nests_ident.returning).of_closed
    next => exact nests_pure _ state
  cases first with
  | some name => exact (nests_pure name).bind ofRest
  | none => exact nests_ident.bind ofRest

/-- The rounds of a list of types up to a bracket. -/
theorem nests_typeList {context : Bytes} {closing : Token} (first : List Expr) :
    Nests .any due due (loop first fun arguments => do
      if ← isAtAny [closing, .eof] then return .done arguments
      let arguments := (← type grammar) :: arguments
      if ← atComma context closing then
        next
        return .again arguments
      return .done arguments : Parse (List Expr)) := by
  refine .loop (fun arguments => .look fun atEnd => ?_) first
  split
  · exact nests_pure _
  · refine (nests_type nests).bind fun argument => nests_atComma (fun state isComma => ?_) (nests_pure _)
    exact (nestsFrom_next_of isComma rfl).returning

theorem nests_typeInstance (base : Expr) : Nests ending due due (typeInstance grammar base) := by
  unfold typeInstance
  refine .of_closed ((nests_expect rfl).after fun opening =>
    (nests_typeList nests []).nested.after fun arguments => ?_)
  refine (nests_expectClosing rfl rfl _).bind fun closing => ?_
  split
  · exact nests_complainExpected _ _
  · exact nests_pure _

theorem nests_qualifiedType (first : Option Ident) :
    Nests (.ofGiven first.isSome) due due (qualifiedType grammar first) := by
  have ofRest (base : Expr) : Nests (.loose true) due due (do
      if ← isAt .lbrack then typeInstance grammar base else return base : Parse Expr) := by
    refine .look fun atBracket => ?_
    split
    · exact nests_typeInstance nests base
    · exact nests_pure _
  cases first <;> exact (nests_typeName _).bind ofRest

/-- The bracket that opens an array type has been taken before. -/
theorem nests_arrayType (opening : Nat) (length : Option Expr) :
    Nests ending (.rbrack :: due) due (arrayType grammar opening length) := by
  unfold arrayType
  extract_lets rest
  have ofRest (length : Option Expr) : Nests .closed (.rbrack :: due) due (rest length) := by
    refine .look fun atComma => ?_
    split
    · exact .look fun _ => nests_complain _ _
    · exact (nests_expect rfl).after fun _ => (nests_type nests).returning
  refine .of_closed ?_
  split
  · exact (nests_pure _).after ofRest
  · refine (Nests.nested fun state => .look ?_).after ofRest
    split
    next isEllipsis =>
      exact .look ((nestsFrom_next_at isEllipsis rfl).returning)
    next =>
      refine Nests.look (fun atClosing => ?_) state
      split
      · exact nests_pure _
      · exact (nests_operand nests).returning

theorem nests_arrayFieldOrInstance (name : Ident) :
    Nests .any due due (arrayFieldOrInstance grammar name) := by
  unfold arrayFieldOrInstance
  refine (nests_expect rfl).bind fun opening => .look fun atClosing => ?_
  extract_lets rest
  have ofRest (parts : List Expr × Option Nat) : Nests .any (.rbrack :: due) due (rest parts) := by
    refine (nests_expect rfl).bind fun closing => ?_
    split
    · exact (nests_type nests).returning
    · refine (nests.type? due).bind (fun element => ?_) (nests_pure _)
      dsimp only
      split
      · exact nests_complain _ _
      · exact nests_pure _
    · exact nests_pure _
  split
  · exact (nests_pure _).bind ofRest
  · refine (Nests.nested ((nests_operand nests).bind fun first => ?_)).bind ofRest
    refine .loop (fun arguments state => .look ?_) _
    split
    next isComma =>
      refine .look ((nestsFrom_next_at isComma rfl).bind fun _ => .look fun atEnd => ?_)
      split
      · exact nests_pure _
      · exact (nests_operand nests).returning
    next => exact nests_pure _ state

theorem nests_unionTerm : Nests .any due due (unionTerm grammar) := by
  intro state
  unfold unionTerm
  refine .look ?_
  split
  next isTilde =>
    exact .look ((nestsFrom_next_at isTilde rfl).bind fun _ => (nests_type nests).returning)
  next =>
    refine (nests.type? due).bind (fun _ => ?_) ?_ state
    · exact nests_pure _
    · exact .look fun _ => nests_complainExpected _ _

theorem nests_union (first : Option Expr) : Nests .any due due (union grammar first) := by
  unfold union
  extract_lets rest
  have ofRest (first : Expr) : Nests .any due due (rest first) := by
    refine .loop (fun left state => .look ?_) first
    split
    next isOr =>
      refine .look ((nestsFrom_next_at isOr rfl).bind fun _ => ?_)
      exact (nests_unionTerm nests).returning
    next => exact nests_pure _ state
  split
  · exact (nests_pure _).bind ofRest
  · exact (nests_unionTerm nests).bind ofRest

/-! ## Parameters -/

theorem nests_dotsType : Nests .any due due (dotsType grammar) :=
  (nests_expect rfl).bind fun _ => (nests_type nests).returning

theorem nests_finishParameter (unions : Bool) (parameter : Parameter) :
    Nests .any due due (finishParameter grammar unions parameter) := by
  unfold finishParameter
  split
  · refine .look fun atOr => ?_
    split
    · exact (nests_union nests _).returning
    · exact nests_pure _
  · exact nests_pure _

theorem nests_parameterAfterName (unions : Bool) (name : Ident) :
    Nests .any due due (parameterAfterName grammar unions name) := by
  refine .look fun word => ?_
  split
  · exact (nests_arrayFieldOrInstance nests name).bind fun _ => nests_finishParameter nests _ _
  · exact (nests_dotsType nests).returning
  · exact (nests_qualifiedType nests _).relax.bind fun _ => nests_finishParameter nests _ _
  · split
    · exact (nests_union nests _).returning
    · exact nests_pure _
  · split
    · exact (nests_union nests _).returning
    · exact nests_pure _
  · split
    · exact (nests_type nests).bind fun _ => nests_finishParameter nests _ _
    · exact nests_pure _

theorem nests_parameter (name : Option Ident) (unions : Bool) :
    Nests .any due due (parameter grammar name unions) := by
  unfold parameter
  split
  · exact nests_parameterAfterName nests _ _
  · refine .look fun word => ?_
    split
    · exact nests_ident.bind fun _ => nests_parameterAfterName nests _ _
    · exact (nests_dotsType nests).returning
    · split
      · exact (nests_union nests _).returning
      · split
        · exact (nests_type nests).bind fun _ => nests_finishParameter nests _ _
        · exact .look fun _ => nests_complainExpected _ _

omit nests in
theorem nests_checkVariadic (allowed : Bool) (types : List Expr) :
    Nests .any due due (checkVariadic allowed types) := by
  unfold checkVariadic
  dsimp only
  split
  · exact nests_pure _
  · exact nests_complaint _ _

theorem nests_parameterEntries (name : Option Ident) (firstType : Option Expr) (closing : Token) :
    Nests .any due due (parameterEntries grammar name firstType closing) := by
  unfold parameterEntries
  extract_lets unions
  refine (Nests.loop (fun parts => ?_) _).returning
  rcases parts with ⟨name, firstType, entries⟩
  refine .look fun atEnd => ?_
  split
  · exact nests_pure _
  · extract_lets rest ofType
    have ofRest (entry : Parameter) : Nests .any due due (rest entry) := by
      refine nests_atComma (fun state isComma => ?_) (nests_pure _)
      exact (nestsFrom_next_of isComma rfl).returning
    split
    · have ofFinish (type : Expr) : Nests .any due due (ofType type) := (nests_pure _).bind ofRest
      split
      · exact (nests_union nests _).bind ofFinish
      · exact (nests_pure _).bind ofFinish
    · exact (nests_parameter nests _ _).bind ofRest

theorem nests_parameterList (name : Option Ident) (firstType : Option Expr) (closing : Token)
    (variadicAllowed : Bool) :
    Nests .any due due (parameterList grammar name firstType closing variadicAllowed) := by
  refine (nests_parameterEntries nests name firstType closing).bind fun entries => ?_
  split
  · exact nests_pure _
  · refine .look fun here => ?_
    dsimp only
    split
    · exact (nests_checkVariadic _ _).returning
    · have checked : Nests .any due due (do
          checkVariadic variadicAllowed ((completeParameters here entries).1.map TypedParameter.type)
          return groupParameters (completeParameters here entries).1 : Parse (List Field)) :=
        (nests_checkVariadic _ _).returning
      split
      · split
        · exact nests_complain _ _
        · exact checked
      · exact checked

theorem nests_parameters (variadicAllowed : Bool) :
    Nests ending due due (parameters grammar variadicAllowed) := by
  unfold parameters
  refine .of_closed ((nests_expect rfl).after fun opening => .look fun atClosing => ?_)
  extract_lets rest
  have ofRest (fields : List Field) : Nests .closed (.rparen :: due) due (rest fields) :=
    (nests_expect_closed rfl rfl).returning
  split
  · exact (nests_pure _).after ofRest
  · exact (nests_parameterList nests _ _ _ _).after ofRest

theorem nests_results : Nests (.loose kept) due due (results grammar) := by
  refine .look fun atParenthesis => ?_
  split
  · exact nests_parameters nests false
  · exact (nests.type? due).bind (fun _ => nests_pure _) (nests_pure _)

theorem nests_typeParameters : Nests .any due due (typeParameters grammar) := by
  unfold typeParameters
  refine (nests_expect rfl).bind fun opening => .look fun atClosing => ?_
  extract_lets rest
  have ofRest (fields : List Field) : Nests .any (.rbrack :: due) due (rest fields) := by
    refine (nests_expect rfl).bind fun closing => ?_
    split
    · exact nests_complain _ _
    · exact nests_pure _
  split
  · exact (nests_pure _).bind ofRest
  · exact (nests_parameterList nests _ _ _ _).bind ofRest

theorem nests_funcType : Nests ending due due (funcType grammar) := by
  unfold funcType
  refine .of_closed ((nests_expect rfl).after fun keyword => .look fun atBracket => ?_)
  extract_lets rest
  have ofRest (value : Unit) : Nests .closed due due (rest value) :=
    (nests_parameters nests true).bind fun _ => (nests_results nests).returning
  split
  · refine (nests_typeParameters nests).after fun parameters => ?_
    split
    · exact nests_complain _ _
    · exact ofRest ()
  · exact ofRest ()

/-! ## Structs and interfaces -/

theorem nests_fieldType : Nests .any due due (fieldType grammar) := by
  intro state
  refine .look ?_
  split
  next =>
    refine nests_ident.bind (fun name => .look fun isEmbedded => ?_) state
    split
    · exact nests_pure _
    · refine .look fun atPeriod => ?_
      split
      · exact (nests_qualifiedType nests _).relax.returning
      · refine (Nests.manyAfter rfl nests_ident).bind fun rest => .look fun atBracket => ?_
        split
        · exact (nests_arrayFieldOrInstance nests name).returning
        · exact (nests_type nests).returning
  next isStar =>
    refine .look ((nestsFrom_next_of isStar rfl).bind fun _ => .look fun atParenthesis => ?_)
    split
    · exact .look fun _ => nests_complain _ _
    · exact (nests_qualifiedType nests none).relax.returning
  next =>
    have refused : Nests .any due due (parenthesized grammar) := .look fun _ => nests_complain _ _
    exact (refused.returning) state
  next => exact .look (nests_complainExpected _ _ state)

theorem nests_structField : Nests .any due due (structField grammar) := by
  refine (nests_fieldType nests).bind fun parts state => .get ?_
  dsimp only
  have ofRest (tag : Option Literal) : Nests .any due due (do
      let comment ← expectSemicolon
      return { names := parts.1, type := parts.2, tag, hasComment := comment.isSome } : Parse Field) :=
    nests_expectSemicolon.returning
  split
  next isString => exact (nestsFrom_next_of isString rfl).bind fun _ => (nests_pure _).bind ofRest
  next => exact (nests_pure _).bind ofRest state

theorem nests_structType : Nests ending due due (structType grammar) := by
  unfold structType
  refine .of_closed ((nests_expect rfl).after fun place => (nests_expect rfl).after fun opening => ?_)
  refine (Nests.many nests_look (nests_structField nests)).after fun fields => ?_
  exact (nests_expect_closed rfl rfl).returning

theorem nests_methodSignature : Nests .any due due (methodSignature grammar) :=
  (nests_parameters nests true).bind fun _ => (nests_results nests).returning

theorem nestsFrom_bracketedElement {state : ParseState} (isBracket : state.current.token = .lbrack)
    (name : Ident) : NestsFrom .any state due due (bracketedElement grammar name) := by
  unfold bracketedElement
  refine .look ((nestsFrom_next_of isBracket rfl).bind fun _ => ?_)
  refine (nests_expr nests).nested.bind fun first => ?_
  extract_lets context ofArguments rest
  have nestsArguments (arguments : List Expr) : Nests .any (.rbrack :: due) due (ofArguments arguments) :=
    (nests_expectClosing rfl rfl _).of_closed.returning
  have ofRest (generic? : Option Ident) : Nests .any (.rbrack :: due) due (rest generic?) := by
    dsimp only [rest]
    split
    · refine (nests_parameterList nests _ _ _ _).bind fun _ => (nests_expect rfl).bind fun _ => ?_
      exact nests_complain _ _
    · refine nests_atComma (fun state isComma => ?_) ((nests_pure _).bind nestsArguments)
      refine (nestsFrom_withLevel fun notes => ?_).bind nestsArguments
      refine NestsFrom.bind (nestsFrom_next ?_) fun _ => nests_typeList nests _
      rw [show ({ state with notes } : ParseState).current.token = .comma from isComma]
      rfl
  split
  · refine .look fun isInstance => ?_
    split
    · exact (nests_pure _).bind ofRest
    · exact (nests_pure _).bind ofRest
  · exact (nests_pure _).bind ofRest

theorem nests_namedElement : Nests .any due due (namedElement grammar) := by
  refine (nests_typeName none).relax.bind fun base => ?_
  split
  next name =>
    refine fun state => .look ?_
    split
    next isBracket => exact nestsFrom_bracketedElement nests isBracket name
    next => exact ((nests_methodSignature nests).returning) state
    next => exact nests_pure _ state
  next =>
    refine .look fun atBracket => ?_
    split
    · exact (nests_typeInstance nests _).returning
    · exact nests_pure _

theorem nests_interfaceElement : Nests .any due due (interfaceElement grammar) := by
  refine .look fun word => ?_
  extract_lets rest
  have ofRest (element? : Option (List Ident × Expr)) : Nests .any due due (rest element?) := by
    dsimp only [rest]
    split
    · exact nests_expectSemicolon.returning
    · exact nests_pure _
  split
  · refine (nests_namedElement nests).bind fun parts => ?_
    dsimp only
    split
    · exact (nests_union nests _).bind fun _ => (nests_pure _).bind ofRest
    · exact (nests_pure _).bind ofRest
  · exact (nests_union nests _).bind fun _ => (nests_pure _).bind ofRest
  · refine (nests.type? due).bind (fun found => ?_) ((nests_pure _).bind ofRest)
    exact (nests_union nests _).bind fun _ => (nests_pure _).bind ofRest

theorem nests_interfaceType : Nests ending due due (interfaceType grammar) := by
  unfold interfaceType
  refine .of_closed ((nests_expect rfl).after fun place => (nests_expect rfl).after fun opening => ?_)
  refine (Nests.loop (fun methods => (nests_interfaceElement nests).bind fun method? => ?_) _).after
    fun methods => ?_
  · split
    · exact nests_pure _
    · exact nests_pure _
  · exact (nests_expect_closed rfl rfl).returning

theorem nests_mapType : Nests ending due due (mapType grammar) := by
  unfold mapType
  refine .of_closed ((nests_expect rfl).after fun place => (nests_expect rfl).after fun _ => ?_)
  refine (nests_type nests).after fun key => (nests_expect rfl).after fun _ => ?_
  exact (nests_type nests).returning

theorem nests_chanType : Nests ending due due (chanType grammar) := by
  unfold chanType
  refine .of_closed (.look fun place state => .look ?_)
  extract_lets rest
  have ofRest (signs : Option Nat × Direction) : Nests .closed due due (rest signs) :=
    (nests_type nests).returning
  split
  next isKeyword =>
    refine (nestsFrom_next_at isKeyword rfl).after fun _ later => .look ?_
    split
    next isArrow =>
      exact .look ((nestsFrom_next_at isArrow rfl).after fun _ => (nests_pure _).after ofRest)
    next => exact (nests_pure _).after ofRest later
  next =>
    refine (nests_expect rfl).after (fun arrow => (nests_expect rfl).after fun _ => ?_) state
    exact (nests_pure _).after ofRest

theorem nests_type? : NestsIf due (type? grammar) := by
  intro state later result ready gives clean
  have found {branch : Parse (Option Expr)} (gives : branch.Gives state result later)
      (ofBranch : NestsFrom .closed state due due branch) :
      Takes (.ofGiven result.isNone) due due state.words later.words :=
    (ofBranch ready gives clean).of_closed
  have kind {parser : Parse Expr} (gives : (do return some (← parser) : Parse (Option Expr)).Gives
      state result later)
      (ofParser : Nests .closed due due parser) : Takes (.ofGiven result.isNone) due due state.words
        later.words :=
    found gives ((ofParser state).returning)
  unfold type? at gives
  replace gives := gives.after rfl
  split at gives
  next => exact kind gives (nests_qualifiedType nests none)
  next =>
    refine found gives ((nests_expect rfl).after (fun opening => ?_) state)
    exact (nests_arrayType nests opening none).returning
  next => exact kind gives (nests_structType nests)
  next =>
    refine found gives ((nests_expect rfl).after (fun _ => ?_) state)
    exact (nests_type nests).returning
  next => exact found gives ((nests_funcType nests state).returning)
  next => exact kind gives (nests_interfaceType nests)
  next => exact kind gives (nests_mapType nests)
  next => exact kind gives (nests_chanType nests)
  next => exact kind gives (nests_chanType nests)
  next isOpening =>
    refine found gives (.look ((nestsFrom_next_of isOpening rfl).after fun _ => ?_))
    exact (nests_type nests).after fun _ => (nests_expect_closed rfl rfl).returning
  next =>
    rcases gives_pure.mp gives with ⟨rfl, rfl⟩
    exact .none true

end Types

end Parse
end Source
end CaseExpansion
