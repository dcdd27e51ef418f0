import CaseExpansion.Proofs.Source.Gathering
import CaseExpansion.Source.Parse.File

namespace CaseExpansion
namespace Source

open List

/-!
# Where the functions of a file are declared

Of what the grammar reads, the doc comment of a function and the brace that ends
its body have to be found in the course of the parse.  `Declares` tells the states at
which they are found; it is what a parse of a file without complaints amounts to, as
far as its functions are concerned.

A parser that complains goes on with a guess.  All that is said here is therefore said
of parses that have no complaints at their end, and so have had none on the way.
-/

namespace Parse

/-- A parser gives a result and gets from one state to another. -/
def Gives {α : Type} (parser : Parse α) (state : ParseState) (result : α) (later : ParseState) : Prop :=
  parser.run state = (some result, later)

section Running

variable {α β : Type} {state later : ParseState} {result : α}

theorem Gives.reaches {parser : Parse α} (gives : parser.Gives state result later) :
    state.Reaches later := by
  have steady := parser.steady state
  rwa [gives] at steady

theorem gives_bind {first : Parse α} {rest : α → Parse β} {result : β} :
    (first >>= rest).Gives state result later ↔
      ∃ value middle, first.Gives state value middle ∧ (rest value).Gives middle result later := by
  change after rest (first.run state) = _ ↔ _
  constructor
  · intro gives
    cases outcome : first.run state with
    | mk value? middle =>
      rw [outcome] at gives
      cases value? with
      | none => cases gives
      | some value => exact ⟨value, middle, outcome, gives⟩
  · rintro ⟨value, middle, outcome, gives⟩
    rw [outcome]
    exact gives

theorem Gives.after {first : Parse α} {rest : α → Parse β} {result : β} {value : α} {middle : ParseState}
    (gives : (first >>= rest).Gives state result later) (outcome : first.Gives state value middle) :
    (rest value).Gives middle result later := by
  rcases gives_bind.mp gives with ⟨_, _, found, gives⟩
  cases outcome.symm.trans found
  exact gives

theorem gives_pure {value : α} : (pure value : Parse α).Gives state result later ↔ value = result ∧
      state = later := by
  change (some value, state) = _ ↔ _
  rw [Prod.mk.injEq, Option.some.injEq]

theorem gives_next : next.Gives state () later ↔ state.next = later := by
  change (some (), state.next) = _ ↔ _
  rw [Prod.mk.injEq, eq_self, true_and]

theorem gives_look {look : ParseState → α} : (do return look (← get) : Parse α).Gives state result later ↔
      look state = result ∧ state = later := by
  change (some (look state), state) = _ ↔ _
  rw [Prod.mk.injEq, Option.some.injEq]

theorem not_giveUp_gives : ¬giveUp.Gives state result later :=
  nofun

end Running

variable {state later : ParseState}

theorem record_gives {diagnostic : Diagnostic} (gives : (record diagnostic).Gives state () later) :
    later.diagnostics ≠ [] := by
  cases gives
  exact cons_ne_nil _ _

/-- After a complaint there are complaints, also when it was dropped. -/
theorem complain_gives {place : Nat} {message : Bytes}
    (gives : (complain place message).Gives state () later) : later.diagnostics ≠ [] := by
  unfold complain at gives
  replace gives := gives.after rfl
  dsimp only at gives
  split at gives
  next last others before =>
    split at gives
    · rcases gives_pure.mp gives with ⟨_, rfl⟩
      rw [before]
      exact cons_ne_nil _ _
    · split at gives
      · rcases gives_bind.mp gives with ⟨_, _, impossible, _⟩
        exact absurd impossible not_giveUp_gives
      · exact record_gives gives
  · exact record_gives gives

theorem complainExpected_gives {place : Nat} {wanted : Bytes}
    (gives : (complainExpected place wanted).Gives state () later) : later.diagnostics ≠ [] := by
  unfold complainExpected at gives
  rcases gives_bind.mp gives with ⟨_, _, _, gives⟩
  exact complain_gives gives

end Parse

namespace ParseState

theorem Reaches.clean {earlier later : ParseState} (reaches : earlier.Reaches later)
    (ready : earlier.Ready) (clean : later.diagnostics = []) : earlier.diagnostics = [] := by
  rcases reaches.passes ready with ⟨_, _, passes, _⟩
  have suffix := passes.diagnostics
  rw [clean] at suffix
  exact suffix_nil.mp suffix

end ParseState

namespace Parse

open ParseState (Reaches Ready)

variable {state later : ParseState}

/-- Where nothing is complained about, the expected lexeme has been taken. -/
theorem expect_gives {wanted : Token} {place : Nat} (gives : (expect wanted).Gives state place later)
    (ready : state.Ready) (clean : later.diagnostics = []) :
    state.current.token = wanted ∧ state.current.offset = place ∧ state.next = later := by
  unfold expect at gives
  replace gives := gives.after rfl
  replace gives := gives.after rfl
  dsimp only at gives
  split at gives
  next isWanted =>
    rcases gives_bind.mp gives with ⟨_, _, moved, gives⟩
    rcases gives_pure.mp gives with ⟨rfl, rfl⟩
    exact ⟨eq_of_beq isWanted, rfl, gives_next.mp moved⟩
  next notWanted =>
    rcases gives_bind.mp gives with ⟨_, _, complained, gives⟩
    rcases gives_bind.mp gives with ⟨_, _, moved, gives⟩
    rcases gives_pure.mp gives with ⟨_, rfl⟩
    have isReady := ready.reaches complained.reaches
    exact absurd (moved.reaches.clean isReady clean) (complainExpected_gives complained)

/-- A block ends with its brace. -/
theorem block_gives {grammar : Grammar} {block : Block}
    (gives : (Parse.block grammar).Gives state block later)
    (ready : state.Ready) (clean : later.diagnostics = []) :
    ∃ last, state.Reaches last ∧ last.current.token = .rbrace ∧ last.current.offset = block.rbrace ∧
      last.next = later := by
  unfold Parse.block at gives
  rcases gives_bind.mp gives with ⟨opening, _, opened, gives⟩
  rcases gives_bind.mp gives with ⟨list, last, listed, gives⟩
  rcases gives_bind.mp gives with ⟨closing, _, closed, gives⟩
  rcases gives_pure.mp gives with ⟨rfl, rfl⟩
  have reaches := opened.reaches.trans listed.reaches
  exact ⟨last, reaches, expect_gives closed (ready.reaches reaches) clean⟩

theorem functionBody_gives {grammar : Grammar} {body : Block}
    (gives : (functionBody grammar).Gives state (some body) later) (ready : state.Ready)
    (clean : later.diagnostics = []) :
    ∃ last, state.Reaches last ∧ last.current.token = .rbrace ∧ last.current.offset = body.rbrace ∧
      last.next.Reaches later := by
  have closes {middle : ParseState} (before : state.Reaches middle)
      (gives : (do let body ← block grammar; let _ ← expectSemicolon; return some body :
        Parse (Option Block)).Gives middle (some body) later) :
      ∃ last, state.Reaches last ∧ last.current.token = .rbrace ∧
        last.current.offset = body.rbrace ∧ last.next.Reaches later := by
    rcases gives_bind.mp gives with ⟨_, _, blocked, gives⟩
    rcases gives_bind.mp gives with ⟨_, _, ended, gives⟩
    rcases gives_pure.mp gives with ⟨same, rfl⟩
    cases same
    have isReady := ready.reaches before
    rcases block_gives blocked isReady (ended.reaches.clean (isReady.reaches blocked.reaches) clean) with
      ⟨last, reaches, isBrace, place, rfl⟩
    exact ⟨last, before.trans reaches, isBrace, place, ended.reaches⟩
  unfold functionBody at gives
  replace gives := gives.after rfl
  split at gives
  · exact closes (.refl _) gives
  · rcases gives_bind.mp gives with ⟨_, _, moved, gives⟩
    rcases gives_bind.mp gives with ⟨_, _, looked, gives⟩
    split at gives
    · rcases gives_bind.mp gives with ⟨_, _, looked', gives⟩
      rcases gives_bind.mp gives with ⟨_, _, complained, gives⟩
      exact closes (((moved.reaches.trans looked.reaches).trans looked'.reaches).trans
        complained.reaches) gives
    · cases (gives_pure.mp gives).1
  · rcases gives_bind.mp gives with ⟨_, _, _, gives⟩
    cases (gives_pure.mp gives).1

end Parse

/-- A function is declared between two states of a parse. -/
structure FuncDecl.Declared (function : FuncDecl) (state later : ParseState) : Prop where
  doc : function.doc = state.lead
  reaches : state.next.Reaches later
  body : ∀ body, function.body = some body → ∃ last, state.Reaches last ∧
    last.current.token = .rbrace ∧ last.current.offset = body.rbrace ∧ last.next.Reaches later

/-- The functions that a stretch of a parse declares. -/
inductive Declares (start : ParseState) : List FuncDecl → ParseState → Prop where
  | none : Declares start [] start
  | pass {functions : List FuncDecl} {state later : ParseState} :
      Declares start functions state → state.Reaches later → Declares start functions later
  | function {functions : List FuncDecl} {state later : ParseState} {function : FuncDecl} :
      Declares start functions state → function.Declared state later →
      Declares start (functions ++ [function]) later

theorem Declares.reaches {start state : ParseState} {functions : List FuncDecl}
    (declares : Declares start functions state) : start.Reaches state := by
  induction declares with
  | none => exact .refl start
  | pass _ reaches ih => exact ih.trans reaches
  | function _ declared ih =>
    exact (ih.next).trans declared.reaches

namespace Parse

variable {state later : ParseState} {grammar : Grammar}

theorem funcDecl_gives {function : FuncDecl} (gives : (funcDecl grammar).Gives state function later)
    (ready : state.Ready) (clean : later.diagnostics = []) : function.Declared state later := by
  unfold funcDecl at gives
  replace gives := gives.after rfl
  rcases gives_bind.mp gives with ⟨keyword, opened, keywordRead, gives⟩
  rcases gives_bind.mp gives with ⟨receiver, received, receiverRead, gives⟩
  rcases gives_bind.mp gives with ⟨name, named, nameRead, gives⟩
  rcases gives_bind.mp gives with ⟨typeParams, typed, typesRead, gives⟩
  rcases gives_bind.mp gives with ⟨params, taken, paramsRead, gives⟩
  rcases gives_bind.mp gives with ⟨results, given, resultsRead, gives⟩
  rcases gives_bind.mp gives with ⟨body, ended, bodyRead, gives⟩
  rcases gives_pure.mp gives with ⟨rfl, rfl⟩
  have signature : opened.Reaches given := (((receiverRead.reaches.trans nameRead.reaches).trans
    typesRead.reaches).trans paramsRead.reaches).trans resultsRead.reaches
  have rest := signature.trans bodyRead.reaches
  have keywordReady := ready.reaches keywordRead.reaches
  have keywordTaken := (expect_gives keywordRead ready (rest.clean keywordReady clean)).2.2
  refine ⟨rfl, keywordTaken ▸ rest, ?_⟩
  rintro block rfl
  rcases functionBody_gives bodyRead (keywordReady.reaches signature) clean with
    ⟨last, reaches, isBrace, place, after⟩
  exact ⟨last, (keywordRead.reaches.trans signature).trans reaches, isBrace, place, after⟩

theorem decl_gives {result : Decl} (gives : (decl grammar).Gives state result later) (ready : state.Ready)
    (clean : later.diagnostics = []) : (∃ function, result = .function function ∧
      function.Declared state later) ∨ result.function? = none := by
  unfold decl at gives
  replace gives := gives.after rfl
  dsimp only at gives
  have grouped {keyword : Token} (gives : (do
      let doc := (← get).lead
      return Decl.group doc (← declGroup grammar keyword)).Gives state result later) :
      result.function? = none := by
    rcases gives_bind.mp gives with ⟨_, _, _, gives⟩
    rcases gives_bind.mp gives with ⟨_, _, _, gives⟩
    rw [← (gives_pure.mp gives).1]
    rfl
  split at gives
  · exact Or.inr (grouped gives)
  · exact Or.inr (grouped gives)
  · exact Or.inr (grouped gives)
  · exact Or.inr (grouped gives)
  · rcases gives_bind.mp gives with ⟨function, _, read, gives⟩
    rcases gives_pure.mp gives with ⟨rfl, rfl⟩
    exact Or.inl ⟨function, rfl, funcDecl_gives read ready clean⟩
  · rcases gives_bind.mp gives with ⟨_, _, _, gives⟩
    rcases gives_bind.mp gives with ⟨_, _, _, gives⟩
    rcases gives_bind.mp gives with ⟨_, _, _, gives⟩
    rw [← (gives_pure.mp gives).1]
    exact Or.inr rfl

/-! ## Loops -/

/-- What every round of a loop keeps holds at its end. -/
theorem loop_gives {σ β : Type} {step : σ → Parse (Round σ β)} {kept : σ → ParseState → Prop}
    {result : β} {value : σ}
    (again : ∀ {value other : σ} {state later : ParseState}, kept value state →
      (step value).Gives state (.again other) later → kept other later)
    (holds : kept value state) (gives : (loop value step).Gives state result later) :
    ∃ last middle, kept last middle ∧ (step last).Gives middle (.done result) later := by
  replace gives : ∃ limit, (iterate step limit value).Gives state result later := ⟨_, gives.after rfl⟩
  rcases gives with ⟨limit, gives⟩
  induction limit generalizing value state with
  | zero => exact absurd gives not_giveUp_gives
  | succ limit ih =>
    rw [iterate] at gives
    rcases gives_bind.mp gives with ⟨round, middle, stepped, gives⟩
    cases round with
    | again other => exact ih (again holds stepped) gives
    | done outcome =>
      rcases gives_pure.mp gives with ⟨rfl, rfl⟩
      exact ⟨value, state, holds, stepped⟩

/-! ## Declarations -/

/-- What holds before each further declaration.  Once there has been a complaint, the
result of the parse does not count, and nothing is said about it. -/
def SoFar (start : ParseState) (decls : List Decl) (state : ParseState) : Prop :=
  start.Reaches state ∧
    (state.diagnostics = [] → Declares start (decls.reverse.filterMap Decl.function?) state)

theorem SoFar.cons {start : ParseState} {decls : List Decl} {result : Decl}
    (soFar : SoFar start decls state)
    (ready : start.Ready) (gives : (decl grammar).Gives state result later) :
    SoFar start (result :: decls) later := by
  have isReady := ready.reaches soFar.1
  refine ⟨soFar.1.trans gives.reaches, fun clean => ?_⟩
  have before := soFar.2 (gives.reaches.clean isReady clean)
  rw [reverse_cons, filterMap_append]
  rcases decl_gives gives isReady clean with ⟨function, rfl, declared⟩ | noFunction
  · exact before.function declared
  · rw [filterMap_cons_none noFunction, filterMap_nil, append_nil]
    exact before.pass gives.reaches

theorem anotherDecl_again {start : ParseState} {onlyImports : Bool} {decls : List Decl}
    {other : Bool × List Decl} (soFar : SoFar start decls state) (ready : start.Ready)
    (gives : (anotherDecl grammar onlyImports decls).Gives state (.again other) later) :
    SoFar start other.2 later := by
  unfold anotherDecl at gives
  replace gives := gives.after rfl
  split at gives
  · cases (gives_pure.mp gives).1
  · replace gives := gives.after rfl
    dsimp only at gives
    split at gives
    · replace gives := gives.after rfl
      rcases gives_bind.mp gives with ⟨_, complained, complains, gives⟩
      rcases gives_bind.mp gives with ⟨result, _, read, gives⟩
      rcases gives_pure.mp gives with ⟨same, rfl⟩
      cases same
      have soFar : SoFar start decls complained :=
        ⟨soFar.1.trans complains.reaches, fun clean => absurd clean (complain_gives complains)⟩
      exact soFar.cons ready read
    · rcases gives_bind.mp gives with ⟨result, _, read, gives⟩
      rcases gives_pure.mp gives with ⟨same, rfl⟩
      cases same
      exact soFar.cons ready read

theorem anotherDecl_done {onlyImports : Bool} {decls result : List Decl}
    (gives : (anotherDecl grammar onlyImports decls).Gives state (.done result) later) :
    decls.reverse = result ∧ state = later ∧ later.current.token = .eof := by
  unfold anotherDecl at gives
  replace gives := gives.after rfl
  split at gives
  next isEnd =>
    rcases gives_pure.mp gives with ⟨same, rfl⟩
    cases same
    exact ⟨rfl, rfl, eq_of_beq isEnd⟩
  · rcases gives_bind.mp gives with ⟨_, _, looked, gives⟩
    dsimp only at gives
    split at gives
    · rcases gives_bind.mp gives with ⟨_, _, _, gives⟩
      rcases gives_bind.mp gives with ⟨_, _, _, gives⟩
      rcases gives_bind.mp gives with ⟨_, _, _, gives⟩
      cases (gives_pure.mp gives).1
    · rcases gives_bind.mp gives with ⟨_, _, _, gives⟩
      cases (gives_pure.mp gives).1

/-- The functions of a file are declared one after another. -/
theorem decls_gives {result : List Decl} (gives : (decls grammar).Gives state result later)
    (ready : state.Ready) (clean : later.diagnostics = []) :
    Declares state (result.filterMap Decl.function?) later ∧ later.current.token = .eof := by
  have holds : SoFar state [] state := ⟨.refl state, fun _ => .none⟩
  rcases loop_gives (fun soFar => anotherDecl_again soFar ready) holds gives with
    ⟨⟨onlyImports, decls⟩, middle, soFar, gives⟩
  rcases anotherDecl_done gives with ⟨rfl, rfl, isEnd⟩
  exact ⟨soFar.2 clean, isEnd⟩

/-- The package clause comes first, and then the functions are declared, up to the end. -/
theorem file_gives {result : File} (gives : (file grammar).Gives state result later) (ready : state.Ready)
    (clean : later.diagnostics = []) :
    state.next.current.token = .kwPackage ∧ state.next.current.offset = result.package ∧
      result.comments = later.comments.reverse ∧
      ∃ start, state.next.next.Reaches start ∧ Declares start result.functions later ∧
        later.current.token = .eof := by
  unfold file at gives
  replace gives := gives.after rfl
  replace gives := gives.after rfl
  dsimp only at gives
  split at gives
  · rcases gives_bind.mp gives with ⟨_, _, impossible, _⟩
    exact absurd impossible not_giveUp_gives
  · rcases gives_bind.mp gives with ⟨package, _, packageRead, gives⟩
    rcases gives_bind.mp gives with ⟨name, _, nameRead, gives⟩
    rcases gives_bind.mp gives with ⟨_, start, ended, gives⟩
    replace gives := gives.after rfl
    split at gives
    · rcases gives_bind.mp gives with ⟨_, _, impossible, _⟩
      exact absurd impossible not_giveUp_gives
    · rcases gives_bind.mp gives with ⟨decls, last, declsRead, gives⟩
      replace gives := gives.after rfl
      rcases gives_pure.mp gives with ⟨rfl, rfl⟩
      have clause := nameRead.reaches.trans ended.reaches
      have packageReady := ready.next.reaches packageRead.reaches
      have rest := clause.trans declsRead.reaches
      rcases expect_gives packageRead ready.next (rest.clean packageReady clean) with
        ⟨isPackage, place, rfl⟩
      exact ⟨isPackage, place, rfl, start, clause,
        decls_gives declsRead (packageReady.reaches clause) clean⟩

end Parse
end Source
end CaseExpansion
