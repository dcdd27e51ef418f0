import CaseExpansion.Proofs.Source.Arrangement
import CaseExpansion.Proofs.Source.Declaring

namespace CaseExpansion
namespace Source

open List
open ParseState (Passes Reaches Ready)

/-!
# A file that has been read is arranged

The comments and functions of a parsed file lie in its text as
`ParsedFile.Arranged` says.  Where they lie is decided by the lexemes; which of
them become the parts of a function is decided by the course of the parse.
-/

/-! ## Comments among the lexemes -/

namespace Lexeme

variable {size : Nat}

theorem Lies.of_comment? {lexeme : Lexeme} {comment : Comment} (lies : lexeme.Lies size)
    (isComment : lexeme.comment? = some comment) : lexeme.offset < lexeme.stop ∧ comment.offset =
      lexeme.offset ∧ comment.offset < comment.stop ∧ comment.stop ≤ lexeme.stop := by
  unfold comment? at isComment
  split at isComment
  next isToken =>
    cases isComment
    have text := lies.comment isToken
    have length := length_pos_iff.mpr text.1
    have solid := lies.solid_of_eq isToken (by decide) (by decide)
    refine ⟨solid, rfl, ?_, text.2⟩
    rw [Comment.stop]
    exact Nat.lt_add_of_pos_right length
  · cases isComment

theorem Spread.comments_ordered {offset : Nat} {lexemes : List Lexeme}
    (spread : Spread size offset lexemes) :
    (lexemes.filterMap comment?).Pairwise fun earlier later => earlier.stop ≤ later.offset := by
  rw [pairwise_filterMap]
  refine spread.ordered.imp_of_mem ?_
  intro earlier later isEarlier isLater before comment isComment other isOther
  have first := (spread.lies earlier isEarlier).of_comment? isComment
  have second := (spread.lies later isLater).of_comment? isOther
  have := before first.1 second.1
  omega

theorem Spread.comments_inside {offset : Nat} {lexemes : List Lexeme}
    (spread : Spread size offset lexemes) :
    ∀ comment ∈ lexemes.filterMap comment?, comment.offset < comment.stop ∧ comment.stop ≤ size := by
  intro comment member
  rcases mem_filterMap.mp member with ⟨lexeme, isLexeme, isComment⟩
  have lies := spread.lies lexeme isLexeme
  have bounds := lies.of_comment? isComment
  exact ⟨bounds.2.2.1, Nat.le_trans bounds.2.2.2 (lies.inside bounds.1)⟩

end Lexeme

/-! ## Comments and the course of a parse -/

namespace ParseState

/-- A parse of a text of the given size starts here. -/
structure Starts (size : Nat) (origin : ParseState) : Prop where
  ready : origin.Ready
  spread : Lexeme.Spread size 0 origin.remaining
  noComments : origin.comments = []

theorem Passes.mem_passed {earlier later : ParseState} {passed : List Lexeme} {added : List CommentGroup}
    (passes : earlier.Passes later passed added) {group : CommentGroup} (isAdded : group ∈ added)
    {comment : Comment} (member : comment ∈ group) :
    ∃ lexeme ∈ passed, lexeme.comment? = some comment := by
  rw [← mem_filterMap, ← passes.gathered]
  exact mem_flatten.mpr ⟨group, mem_reverse.mpr isAdded, member⟩

namespace Starts

variable {size : Nat} {origin state : ParseState} (starts : origin.Starts size)
  (reaches : origin.Reaches state)
include starts reaches

theorem current_lies : state.current.Lies size := by
  rcases reaches.passes starts.ready with ⟨passed, added, passes, _⟩
  refine starts.spread.lies _ ?_
  rw [passes.remaining]
  exact mem_append_right passed mem_cons_self

variable {group : CommentGroup}

/-- What has been gathered lies before what remains. -/
theorem gathered_before {later : ParseState} (goes : state.Reaches later)
    (isGroup : group ∈ state.comments)
    {comment : Comment} (member : comment ∈ group) (solid : later.current.offset < later.current.stop) :
    comment.stop ≤ later.current.offset := by
  rcases reaches.passes starts.ready with ⟨passed, added, passes, _⟩
  rcases goes.passes (starts.ready.reaches reaches) with ⟨rest, others, goesOn, _⟩
  rw [passes.comments, starts.noComments, append_nil] at isGroup
  rcases passes.mem_passed isGroup member with ⟨lexeme, isPassed, isComment⟩
  have spread := starts.spread
  rw [passes.remaining, goesOn.remaining] at spread
  have bounds := (spread.lies lexeme (mem_append_left _ isPassed)).of_comment? isComment
  have before := (pairwise_append.mp spread.ordered).2.2 lexeme isPassed later.current
    (mem_append_right rest mem_cons_self) bounds.1 solid
  omega

theorem gathered_after {later : ParseState} {passed : List Lexeme} {added : List CommentGroup}
    (goes : state.Passes later passed added) (isAdded : group ∈ added) {comment : Comment}
    (member : comment ∈ group) (solid : state.current.offset < state.current.stop) :
    state.current.stop ≤ comment.offset := by
  rcases reaches.passes starts.ready with ⟨before, gathered, passes, _⟩
  rcases goes.mem_passed isAdded member with ⟨lexeme, isPassed, isComment⟩
  have isRemaining : lexeme ∈ state.remaining := by
    rw [goes.remaining]
    exact mem_append_left _ isPassed
  have spread := starts.spread
  rw [passes.remaining] at spread
  have bounds := (spread.lies lexeme (mem_append_right _ isRemaining)).of_comment? isComment
  rcases mem_cons.mp isRemaining with isCurrent | isAhead
  · have notComment := Lexeme.comment?_eq_none (starts.ready.reaches reaches).notComment
    rw [isCurrent, notComment] at isComment
    cases isComment
  · have ordered := (pairwise_append.mp spread.ordered).2.1
    have := (pairwise_cons.mp ordered).1 lexeme isAhead solid bounds.1
    omega

theorem group_ne_nil (isGroup : group ∈ state.comments) : group ≠ [] := by
  rcases reaches.passes starts.ready with ⟨passed, added, passes, _⟩
  rw [passes.comments, starts.noComments, append_nil] at isGroup
  exact passes.nonempty group isGroup

end Starts
end ParseState

theorem CommentGroup.exists_start {group : CommentGroup} (some : group ≠ []) :
    ∃ comment ∈ group, CommentGroup.start group = comment.offset := by
  cases group with
  | nil => exact absurd rfl some
  | cons first rest => exact ⟨first, mem_cons_self, rfl⟩

theorem CommentGroup.exists_stop {group : CommentGroup} (some : group ≠ []) :
    ∃ comment ∈ group, CommentGroup.stop group = comment.stop := by
  rcases eq_nil_or_concat group with rfl | ⟨before, last, rfl⟩
  · exact absurd rfl some
  · rw [concat_eq_append]
    refine ⟨last, mem_append_right before (mem_singleton_self last), ?_⟩
    rw [CommentGroup.stop, getLast?_append, getLast?_singleton]
    rfl

/-! ## Functions and the course of a parse -/

namespace Declares

variable {start later : ParseState} {functions : List FuncDecl}

theorem exists_declared (declares : Declares start functions later) {function : FuncDecl}
    (member : function ∈ functions) :
    ∃ opened closed, start.Reaches opened ∧ function.Declared opened closed ∧ closed.Reaches later := by
  induction declares with
  | none => cases member
  | pass _ reaches ih =>
    rcases ih member with ⟨opened, closed, before, declared, after⟩
    exact ⟨opened, closed, before, declared, after.trans reaches⟩
  | function before declared ih =>
    rcases mem_append.mp member with isEarlier | isLast
    · rcases ih isEarlier with ⟨opened, closed, reaches, isDeclared, after⟩
      exact ⟨opened, closed, reaches, isDeclared, after.next.trans declared.reaches⟩
    · cases mem_singleton.mp isLast
      exact ⟨_, _, before.reaches, declared, .refl _⟩

theorem pairwise_declared (declares : Declares start functions later) :
    functions.Pairwise fun first second => ∃ opened closed reopened reclosed,
      start.Reaches opened ∧ first.Declared opened closed ∧ closed.Reaches reopened ∧
        second.Declared reopened reclosed := by
  induction declares with
  | none => exact .nil
  | pass _ _ ih => exact ih
  | function before declared ih =>
    refine pairwise_append.mpr ⟨ih, pairwise_singleton _ _, ?_⟩
    intro first isFirst second isSecond
    cases mem_singleton.mp isSecond
    rcases before.exists_declared isFirst with ⟨opened, closed, reaches, isDeclared, after⟩
    exact ⟨opened, closed, _, _, reaches, isDeclared, after, declared⟩

/-- The doc comments of functions are gathered in the order of the functions.  The
lexeme at which the last one stood has been passed since. -/
theorem docs_sublist {origin : ParseState} (ready : origin.Ready) (opens : origin.next.Reaches start)
    (declares : Declares start functions later) :
    ∃ base : ParseState, base.Ready ∧ base.next.Reaches later ∧
      (functions.filterMap FuncDecl.doc).Sublist base.comments.reverse := by
  induction declares with
  | none => exact ⟨origin, ready, opens, nil_sublist _⟩
  | pass _ reaches ih =>
    rcases ih with ⟨base, isReady, before, sublist⟩
    exact ⟨base, isReady, before.trans reaches, sublist⟩
  | @function functions state later function _ declared ih =>
    rcases ih with ⟨base, isReady, before, sublist⟩
    rcases before.passes_of_next isReady with ⟨passed, added, passes, isLead⟩
    -- The earlier doc comments were gathered up to `base`, and this one after it.
    refine ⟨state, isReady.next.reaches before, declared.reaches, ?_⟩
    rw [filterMap_append, passes.comments, reverse_append]
    refine sublist.append ?_
    cases doc : function.doc with
    | none =>
      rw [filterMap_cons_none doc]
      exact nil_sublist _
    | some group =>
      rw [filterMap_cons_some doc, filterMap_nil, singleton_sublist,
        mem_reverse]
      exact isLead group (declared.doc ▸ doc)

end Declares
/-! ## Arrangement -/

section Arranging

variable {size : Nat} {origin clause start later : ParseState} {functions : List FuncDecl}
  (starts : origin.Starts size) (reaches : origin.Reaches clause)
  (opens : clause.next.Reaches start) (declares : Declares start functions later)
include starts reaches opens declares

theorem doc_after_clause (solid : clause.current.offset < clause.current.stop) {function : FuncDecl}
    (member : function ∈ functions) {doc : CommentGroup} (hasDoc : function.doc = some doc) :
    clause.current.offset ≤ CommentGroup.start doc := by
  rcases declares.exists_declared member with ⟨opened, closed, before, declared, _⟩
  rcases (opens.trans before).passes_of_next (starts.ready.reaches reaches) with
    ⟨passed, added, passes, isLead⟩
  have isAdded := isLead doc (declared.doc ▸ hasDoc)
  rcases CommentGroup.exists_start (passes.nonempty doc isAdded) with ⟨comment, isComment, isStart⟩
  have := starts.gathered_after reaches passes isAdded isComment solid
  omega

theorem body_after_doc {function : FuncDecl} (member : function ∈ functions) {doc : CommentGroup}
    {body : Block} (hasDoc : function.doc = some doc) (hasBody : function.body = some body) :
    CommentGroup.stop doc ≤ body.rbrace ∧ body.rbrace < size := by
  rcases declares.exists_declared member with ⟨opened, closed, before, declared, _⟩
  have isReached := (reaches.next.trans opens).trans before
  have isGroup := (starts.ready.reaches isReached).lead doc (declared.doc ▸ hasDoc)
  rcases declared.body body hasBody with ⟨last, goes, isBrace, place, _⟩
  have lies := starts.current_lies (isReached.trans goes)
  have solid := lies.solid_of_eq isBrace (by decide) (by decide)
  rcases CommentGroup.exists_stop (starts.group_ne_nil isReached isGroup) with
    ⟨comment, isComment, isStop⟩
  have := starts.gathered_before isReached goes isGroup isComment solid
  have := lies.inside solid
  omega

theorem doc_after_body : functions.Pairwise fun earlier later => ∀ body doc,
    earlier.body = some body → later.doc = some doc → body.rbrace < CommentGroup.start doc := by
  refine declares.pairwise_declared.imp ?_
  rintro earlier later ⟨opened, closed, reopened, _, before, declared, between, redeclared⟩ body doc
    hasBody hasDoc
  rcases declared.body body hasBody with ⟨last, goes, isBrace, place, ends⟩
  have isReached := ((reaches.next.trans opens).trans before).trans goes
  have lies := starts.current_lies isReached
  have solid := lies.solid_of_eq isBrace (by decide) (by decide)
  rcases (ends.trans between).passes_of_next (starts.ready.reaches isReached) with
    ⟨passed, added, passes, isLead⟩
  have isAdded := isLead doc (redeclared.doc ▸ hasDoc)
  rcases CommentGroup.exists_start (passes.nonempty doc isAdded) with ⟨comment, isComment, isStart⟩
  have := starts.gathered_after isReached passes isAdded isComment solid
  omega

theorem group_beside_clause (solid : clause.current.offset < clause.current.stop)
    {group : CommentGroup} (isGroup : group ∈ later.comments)
    (isBefore : group.start < clause.current.offset) : group.stop ≤ clause.current.offset := by
  have isReady := starts.ready.reaches reaches
  rcases (((Reaches.refl clause).next.trans opens).trans declares.reaches).passes isReady with
    ⟨passed, added, passes, _⟩
  rw [passes.comments] at isGroup
  rcases mem_append.mp isGroup with isAdded | isEarlier
  · rcases CommentGroup.exists_start (passes.nonempty group isAdded) with ⟨comment, isComment, isStart⟩
    have := starts.gathered_after reaches passes isAdded isComment solid
    omega
  · rcases CommentGroup.exists_stop (starts.group_ne_nil reaches isEarlier) with
      ⟨comment, isComment, isStop⟩
    rw [isStop]
    exact starts.gathered_before reaches (.refl clause) isEarlier isComment solid

end Arranging

namespace Parse

/-- A parse of the lexemes of a file starts where they start. -/
theorem initial_starts (filename text : Bytes) :
    (initial (scanFile filename text).1 (scanFile filename text).2).Starts text.length := by
  have closed := scanFile_closed filename text
  have nowhere : Lexeme.Lies text.length { token := .eof, offset := 0, stop := 0 } :=
    ⟨fun _ notEnd => absurd rfl notEnd, nofun, nofun⟩
  refine ⟨⟨?_, nofun, nofun⟩, ?_, rfl⟩
  · have some : (scanFile filename text).2 ≠ [] := by
      intro nothing
      rw [nothing] at closed
      cases closed
    rw [ParseState.Closed, ParseState.remaining, ← singleton_append, initial,
      getLast?_append_of_ne_nil _ some]
    exact closed
  · exact (scanFile_spread filename text).cons nowhere (Nat.le_refl 0) (Nat.le_refl 0)

/-- What a successful run says about the parser. -/
theorem runOn_eq_ok {α : Type} {parser : Grammar → Parse α} {table : LineTable} {lexemes : List Lexeme}
    {result : α} (run : runOn parser table lexemes = .ok result) :
    ∃ later, (parser (Grammar.ofDepth (depthFor lexemes))).Gives (initial table lexemes) result later ∧
      later.diagnostics = [] := by
  unfold runOn at run
  split at run
  next value state outcome =>
    split at run
    next isClean =>
      cases run
      exact ⟨state, outcome, List.isEmpty_iff.mp isClean⟩
    · cases run
  · cases run

end Parse

variable {filename text : Bytes} {source : ParsedFile}

/-- A parsed file comes from a course of the parse that declares its functions. -/
theorem parseFile_eq_ok (parsed : parseFile filename text = .ok source) :
    source.text = text ∧ source.table = (scanFile filename text).1 ∧
      ∃ origin start later : ParseState,
        origin = Parse.initial (scanFile filename text).1 (scanFile filename text).2 ∧
        origin.next.current.token = .kwPackage ∧
        origin.next.current.offset = source.file.package ∧
        origin.next.next.Reaches start ∧ Declares start source.file.functions later ∧
        source.file.comments = later.comments.reverse ∧
        later.diagnostics = [] ∧ later.current.token = .eof := by
  rw [parseFile] at parsed
  cases run : Parse.runOn Parse.file (scanFile filename text).1 (scanFile filename text).2 with
  | error diagnostics =>
    simp only [run] at parsed
    cases parsed
  | ok file =>
    simp only [run] at parsed
    cases parsed
    rcases Parse.runOn_eq_ok run with ⟨later, gives, clean⟩
    rcases Parse.file_gives gives (Parse.initial_starts filename text).ready clean with
      ⟨isPackage, place, comments, start, opens, declares, isEnd⟩
    exact ⟨rfl, rfl, _, start, later, rfl, isPackage, place, opens, declares, comments, clean, isEnd⟩

/-- The parts of a parsed file lie in its text. -/
theorem parseFile_arranged (parsed : parseFile filename text = .ok source) : source.Arranged := by
  rcases parseFile_eq_ok parsed with
    ⟨isText, isTable, origin, start, later, isOrigin, isPackage, place, opens, declares, comments, _⟩
  have starts : origin.Starts text.length := isOrigin ▸ Parse.initial_starts filename text
  have reaches : origin.Reaches origin.next := (Reaches.refl origin).next
  have solid := (starts.current_lies reaches).solid_of_eq isPackage (by decide) (by decide)
  have whole := (reaches.next.trans opens).trans declares.reaches
  rcases whole.passes starts.ready with ⟨passed, added, passes, _⟩
  have gathered : source.comments = passed.filterMap Lexeme.comment? := by
    rw [ParsedFile.comments, comments, passes.comments, starts.noComments, append_nil,
      passes.gathered]
  have spread : Lexeme.Spread text.length 0 passed := by
    refine starts.spread.of_sublist ?_
    rw [passes.remaining]
    exact sublist_append_left _ _
  refine ⟨?_, ?_, ?_, ?_, ?_, ?_, ?_, ?_, ?_⟩
  · rw [isTable, isText]
    exact (scanFile_keeps filename text).1
  · rw [gathered]
    exact spread.comments_ordered
  · rw [gathered, isText]
    exact spread.comments_inside
  · intro group isGroup
    rw [comments, mem_reverse] at isGroup
    exact starts.group_ne_nil whole isGroup
  · rcases declares.docs_sublist (starts.ready.reaches reaches) opens with ⟨base, isReady, rest, sublist⟩
    rcases ((Reaches.refl base).next.trans rest).passes isReady with ⟨_, more, goes, _⟩
    rw [comments, goes.comments, reverse_append]
    exact sublist.trans (sublist_append_left _ _)
  · intro group isGroup isBefore
    rw [comments, mem_reverse] at isGroup
    rw [← place] at isBefore ⊢
    exact group_beside_clause starts reaches opens declares solid isGroup isBefore
  · intro function member doc hasDoc
    rw [← place]
    exact doc_after_clause starts reaches opens declares solid member hasDoc
  · intro function member doc body hasDoc hasBody
    rw [isText]
    exact body_after_doc starts reaches opens declares member hasDoc hasBody
  · exact doc_after_body starts reaches opens declares

theorem isBlankText_of_parseFile (parsed : parseFile filename text = .ok source) :
    Text.isBlankText text = false := by
  rcases parseFile_eq_ok parsed with ⟨_, _, origin, _, _, isOrigin, isPackage, _⟩
  have starts : origin.Starts text.length := isOrigin ▸ Parse.initial_starts filename text
  rcases (Reaches.refl origin).next.passes starts.ready with ⟨passed, added, passes, _⟩
  have member : origin.next.current ∈ origin.remaining := by
    rw [passes.remaining]
    exact mem_append_right passed mem_cons_self
  rcases mem_cons.mp member with isFirst | isAhead
  · rw [isFirst, isOrigin] at isPackage
    cases isPackage
  · rw [isOrigin] at isAhead
    exact isBlankText_of_scanFile isAhead (isOrigin ▸ isPackage)

end Source
end CaseExpansion
