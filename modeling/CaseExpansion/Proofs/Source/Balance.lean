import CaseExpansion.Proofs.Source.Brackets

namespace CaseExpansion
namespace Source

/-!
# Brackets and the ends of expressions

Expressions and statements leave the due brackets as they are, like the types in them, and the last
word of an expression can end a statement.  Since the grammar goes from expressions to statements and
back, all of it is put together by induction on the depth to which it may go.
-/

namespace Parse

open Token (dueAfter?)

/-! ## Expressions -/

section Expressions

variable {grammar : Grammar} {ending : Ending} {kept : Bool} {due : List Token} (nests : grammar.Nests)

include nests

theorem nests_statements : Nests .any due due (statements grammar) :=
  .many (.look fun _ => nests_pure _) (nests.statement due)

theorem nests_block : Nests ending due due (block grammar) := by
  unfold block
  refine .of_closed ((nests_expect rfl).after fun opening =>
    (nests_statements nests).after fun list => ?_)
  exact (nests_expect_closed rfl rfl).returning

theorem nests_funcTypeOrLiteral : Nests ending due due (funcTypeOrLiteral grammar) := by
  refine .of_closed ((nests_funcType nests).bind fun signature => .look fun atBody => ?_)
  split
  · exact (nests_block nests).nested.returning
  · exact nests_pure _

theorem nests_simpleOperand : Nests ending due due (simpleOperand grammar) := by
  refine .of_closed fun state => .get ?_
  dsimp only
  split
  next => exact (nests_ident state).returning
  next isInt => exact (nestsFrom_next_closed isInt rfl rfl).returning
  next isFloat => exact (nestsFrom_next_closed isFloat rfl rfl).returning
  next isImag => exact (nestsFrom_next_closed isImag rfl rfl).returning
  next isChar => exact (nestsFrom_next_closed isChar rfl rfl).returning
  next isString => exact (nestsFrom_next_closed isString rfl rfl).returning
  next isOpening =>
    refine (nestsFrom_next_of isOpening rfl).after fun _ => ?_
    refine (nests_operand nests).nested.after fun inner => ?_
    exact (nests_expect_closed rfl rfl).returning
  next => exact nests_funcTypeOrLiteral nests state
  next =>
    refine (nests.type? due).bind (fun found => ?_) ?_ state
    · exact nests_pure _
    · exact nests_complainExpected _ _

theorem nests_assertion (base : Expr) : Nests ending due due (assertion grammar base) := by
  unfold assertion
  refine .of_closed ((nests_expect rfl).after fun opening state => .look ?_)
  extract_lets rest
  have ofRest (asserted : Option Expr) : Nests .closed (.rparen :: due) due (rest asserted) :=
    (nests_expect_closed rfl rfl).returning
  split
  next isKeyword => exact (nestsFrom_next_at isKeyword rfl).after fun _ => (nests_pure _).after ofRest
  next => exact (nests_type nests state).after fun _ => (nests_pure _).after ofRest

theorem nestsFrom_sliceBounds {state : ParseState} (isColon : state.current.token = .colon) :
    NestsFrom .any state due due (sliceBounds grammar) := by
  unfold sliceBounds
  extract_lets bound
  have ofBound {state : ParseState} (isColon : state.current.token = .colon) :
      NestsFrom .any state due due bound := by
    refine .look ((nestsFrom_next_of isColon rfl).bind fun _ => .look fun atEnd => ?_)
    split
    · exact nests_pure _
    · exact (nests_operand nests).returning
  refine (ofBound isColon).bind fun first later => .look ?_
  split
  next isColon => exact (ofBound (eq_of_beq isColon)).returning
  next => exact nests_pure _ later

theorem nests_indexOrSlice (base : Expr) : Nests ending due due (indexOrSlice grammar base) := by
  unfold indexOrSlice
  refine .of_closed ((nests_expect rfl).after fun opening => .look fun atClosing => ?_)
  split
  · exact .look fun _ => nests_complainExpected _ _
  · refine (Nests.nested fun state => .look ?_).after fun parts =>
      (nests_expect_closed rfl rfl).bind fun closing => ?_
    · extract_lets rest
      have ofRest (first : Option Expr) : Nests .any (.rbrack :: due) (.rbrack :: due) (rest first) := by
        refine fun state => .look ?_
        split
        next isColon => exact (nestsFrom_sliceBounds nests isColon).returning
        next =>
          refine Nests.bind (.manyAfter rfl (.look fun atEnd => ?_)) (fun _ => nests_pure _) state
          split
          · exact nests_pure _
          · exact (nests_type nests).returning
        next => exact nests_pure _ state
      split
      · exact (nests_pure _).bind ofRest state
      · exact (nests_operand nests state).bind fun _ => (nests_pure _).bind ofRest
    · split
      · exact nests_pure _
      · dsimp only
        split
        · exact nests_complain _ _
        · split
          · exact nests_complain _ _
          · exact nests_pure _
      · exact nests_pure _

theorem nests_call (callee : Expr) : Nests ending due due (call grammar callee) := by
  unfold call
  refine .of_closed ((nests_expect rfl).after fun opening => ?_)
  refine (Nests.nested (.loop (fun parts => ?_) _)).after fun parts => ?_
  · rcases parts with ⟨arguments, ellipsis⟩
    refine .look fun atEnd => ?_
    split
    · exact nests_pure _
    · refine (nests_operand nests).bind fun argument state => .look ?_
      extract_lets rest
      have ofRest (ellipsis : Option Nat) : Nests .any (.rparen :: due) (.rparen :: due)
          (rest ellipsis) := by
        refine nests_atComma (fun state isComma => ?_) (nests_pure _)
        exact (nestsFrom_next_of isComma rfl).returning
      split
      next isEllipsis =>
        exact .look ((nestsFrom_next_at isEllipsis rfl).bind fun _ => (nests_pure _).bind ofRest)
      next => exact (nests_pure _).bind ofRest state
  · exact (nests_expectClosing rfl rfl _).returning

theorem nests_elementValue : Nests .any due due (elementValue grammar) := by
  refine .look fun atBrace => ?_
  split
  · exact nests.literalValue none due
  · exact nests_expr nests

theorem nests_element : Nests .any due due (element grammar) := by
  refine (nests_elementValue nests).bind fun value state => .look ?_
  split
  next isColon =>
    refine .look ((nestsFrom_next_at isColon rfl).bind fun _ => ?_)
    exact (nests_elementValue nests).returning
  next => exact nests_pure _ state

theorem nests_literalValue (type : Option Expr) : Nests ending due due (literalValue grammar type) := by
  unfold literalValue
  refine .of_closed ((nests_expect rfl).after fun opening => ?_)
  refine (Nests.nested (.loop (fun elements => .look fun atEnd => ?_) _)).after fun elements => ?_
  · split
    · exact nests_pure _
    · refine (nests_element nests).bind fun element =>
        nests_atComma (fun state isComma => ?_) (nests_pure _)
      exact (nestsFrom_next_of isComma rfl).returning
  · exact (nests_expectClosing rfl rfl _).returning

theorem nests_selector (base : Expr) : Nests ending due due (selector grammar base) := by
  refine .of_closed (.look fun word => ?_)
  split
  · exact nests_ident.returning
  · exact nests_assertion nests base
  · exact .look fun _ => nests_complainExpected _ _

theorem nests_primaryFrom (operand : Expr) :
    Nests (.loose kept) due due (primaryFrom grammar operand) := by
  refine .loop (fun base state => .look ?_) operand
  split
  next isPeriod =>
    refine .of_closed ((nestsFrom_next_of isPeriod rfl).after fun _ => ?_)
    exact (nests_selector nests base).returning
  next => exact (nests_indexOrSlice nests base state).returning
  next => exact (nests_call nests base state).returning
  next =>
    refine .get ?_
    dsimp only
    split
    · split
      · exact nests_complain _ _ state
      · exact (nests.literalValue (some base) due state).returning
    · exact nests_pure _ state
  next => exact nests_pure _ state

omit nests in
theorem nests_arrowChannel (arrow : Nat) (expr : Expr) :
    Nests (.loose kept) due due (arrowChannel arrow expr) := by
  fun_induction arrowChannel arrow expr with
  | case1 => exact nests_complainExpected _ _
  | case2 arrow _ ownArrow direction value ownPlace rest notReceiving =>
    rename_i ih
    dsimp only [rest]
    split
    · split
      · exact ih.returning
      · exact nests_complainExpected _ _
    · exact nests_pure _
  | case3 expr => exact nests_pure expr

theorem nests_unary : Nests ending due due (unary grammar) := by
  refine .of_closed (.look fun place state => .look ?_)
  have signed (isSign : dueAfter? due state.current.token = some due) : NestsFrom .closed
      state due due (do
      let operator ← token
      next
      return .unary place operator (← grammar.unary) : Parse Expr) :=
    .look ((nestsFrom_next isSign).after fun _ => (nests.unary due).returning)
  split
  next isSign => exact signed (by rw [isSign]; rfl)
  next isSign => exact signed (by rw [isSign]; rfl)
  next isSign => exact signed (by rw [isSign]; rfl)
  next isSign => exact signed (by rw [isSign]; rfl)
  next isSign => exact signed (by rw [isSign]; rfl)
  next isSign => exact signed (by rw [isSign]; rfl)
  next isArrow =>
    refine (nestsFrom_next_of isArrow rfl).after fun _ => (nests.unary due).bind fun operand => ?_
    split
    · exact nests_arrowChannel _ _
    · exact nests_pure _
  next isStar =>
    refine (nestsFrom_next_of isStar rfl).after fun _ => ?_
    exact (nests.unary due).returning
  next => exact (nests_simpleOperand nests state).bind fun operand => nests_primaryFrom nests operand

/-- No bracket is taken for an operator, since an operator binds at least as tightly as one. -/
theorem nests_binaryFrom {precedence : Nat} (some : 1 ≤ precedence) (first : Expr) :
    Nests (.loose kept) due due (binaryFrom grammar precedence first) := by
  refine .loop (fun left => ?_) first
  have ofOperator : Nests (.loose kept) due due binaryOperator := .look fun _ => nests_look
  refine ofOperator.bind fun operator => ?_
  split
  · exact nests_pure _
  next isOperator =>
    have binds : 1 ≤ operator.precedence := Nat.le_trans some (Nat.not_lt.mp isOperator)
    refine .of_closed ((nests_expect (Token.dueAfter?_of_precedence binds due)).after fun place => ?_)
    exact (nests.binary (Nat.le_add_left 1 _) due).returning

theorem nests_binary {precedence : Nat} (some : 1 ≤ precedence) :
    Nests ending due due (binary grammar precedence) :=
  .of_closed ((nests.unary due).bind fun first => nests_binaryFrom nests some first)

end Expressions

/-! ## Declarations inside functions -/

section Statements

variable {grammar : Grammar} {due : List Token} (nests : grammar.Nests)

theorem nests_aliasSign : Nests .any due due aliasSign := by
  intro state
  refine .look ?_
  split
  next isSign => exact .look ((nestsFrom_next_at isSign rfl).returning)
  next => exact nests_pure _ state

include nests

theorem nests_typeDefinition : Nests .any due due (typeDefinition grammar) := by
  intro state
  unfold typeDefinition
  refine .look ?_
  split
  next isBracket =>
    refine .look ((nestsFrom_next_at isBracket rfl).bind fun _ => .look fun atName => ?_)
    split
    · refine nests_ident.bind fun name => .look fun atBracket => ?_
      extract_lets rest
      have ofRest (first : Expr) : Nests .any (.rbrack :: due) due (rest first) := by
        refine .look fun atComma => ?_
        have ofArray : Nests .any (.rbrack :: due) due (do
            return ({}, none, ← arrayType grammar state.current.offset (some first)) :
              Parse (FieldList × Option Nat × Expr)) :=
          (nests_arrayType nests _ _).returning
        dsimp only
        split
        · refine .look fun atClosing => ?_
          split
          · refine (nests_parameterList nests _ _ _ _).bind fun fields =>
              (nests_expect rfl).bind fun closing => ?_
            exact nests_aliasSign.bind fun _ => (nests_type nests).returning
          · exact ofArray
        · exact ofArray
      split
      · exact (nests_pure _).bind ofRest
      · refine Nests.bind (.nested ((nests_primaryFrom nests _).bind fun operand => ?_)) ofRest
        exact nests_binaryFrom nests (Nat.le_refl 1) operand
    · exact (nests_arrayType nests _ none).returning
  next => exact (nests_aliasSign.bind fun _ => (nests_type nests).returning) state

theorem nests_typeSpec : Nests .any due due (typeSpec grammar) := by
  refine nests_ident.bind fun name => (nests_typeDefinition nests).bind fun parts => ?_
  exact nests_expectSemicolon.returning

theorem nests_initialValues : Nests .any due due (initialValues grammar) := by
  intro state
  refine .look ?_
  split
  next isSign => exact (nestsFrom_next_at isSign rfl).bind fun _ => nests_exprs nests true
  next => exact nests_pure _ state

theorem nests_valueSpec (keyword : Token) : Nests .any due due (valueSpec grammar keyword) := by
  unfold valueSpec
  refine nests_ident.bind fun first => (Nests.manyAfter rfl nests_ident).bind fun rest => ?_
  extract_lets finish ofType
  have ofFinish (parts : Option Expr × List Expr) : Nests .any due due (finish parts) :=
    nests_expectSemicolon.returning
  have ofDeclared (declared : Option Expr) : Nests .any due due (ofType declared) :=
    (nests_initialValues nests).bind fun _ => (nests_pure _).bind ofFinish
  split
  · refine .look fun atEnd => ?_
    split
    · exact (nests_pure _).bind ofFinish
    · exact (nests.type? due).bind (fun _ => ofDeclared _) (ofDeclared none)
  · refine .look fun atSign => ?_
    split
    · exact (nests_pure _).bind ofDeclared
    · exact (nests_type nests).bind fun _ => (nests_pure _).bind ofDeclared

theorem nests_spec {keyword : Token} (noImport : keyword ≠ .kwImport) (doc : Option CommentGroup) :
    Nests .any due due (spec grammar keyword doc) := by
  unfold spec
  split
  · exact absurd rfl noImport
  · exact nests_typeSpec nests
  · exact nests_valueSpec nests _

/-- No imports stand inside of functions. -/
theorem nests_declGroup {keyword : Token} (noImport : keyword ≠ .kwImport)
    (noBracket : ∀ due, dueAfter? due keyword = some due) :
    Nests .any due due (declGroup grammar keyword) := by
  unfold declGroup
  refine (nests_expect (noBracket due)).bind fun place state => .look ?_
  split
  next isOpening =>
    refine .look ((nestsFrom_next_at isOpening rfl).bind fun _ => ?_)
    refine Nests.bind (.many (.look fun _ => nests_pure _) ?_) fun specs => ?_
    · exact fun state => .get (nests_spec nests noImport _ state)
    · exact (nests_expect rfl).bind fun _ => nests_expectSemicolon.returning
  next => exact (nests_spec nests noImport none state).returning

/-! ## Statements -/

/-- The keyword is the current lexeme. -/
theorem nestsFrom_rangeClause {state : ParseState} (isRange : state.current.token = .kwRange) :
    NestsFrom .any state due due (rangeClause grammar) := by
  refine .look ((nestsFrom_next_of isRange rfl).bind fun _ => ?_)
  exact (nests_operand nests).returning

theorem nests_simpleStatement (mode : SimpleMode) :
    Nests .any due due (simpleStatement grammar mode) := by
  refine (nests_exprs nests false).bind fun left state => .get ?_
  dsimp only
  split
  next assigns =>
    refine (nestsFrom_next (Token.dueAfter?_of_isAssignment assigns due)).bind fun _ later => .look ?_
    split
    next isRange =>
      simp only [Bool.and_eq_true] at isRange
      exact (nestsFrom_rangeClause nests (eq_of_beq isRange.1.2)).returning
    next => exact ((nests_exprs nests true).returning) later
  next =>
    split
    · exact nests_complainExpected _ _ state
    · split
      next isColon =>
        refine (nestsFrom_next_of isColon rfl).bind fun _ => ?_
        split
        · exact (nests.statement due).returning
        · exact nests_complain _ _
      next isArrow =>
        refine (nestsFrom_next_of isArrow rfl).bind fun _ => ?_
        exact (nests_operand nests).returning
      next isStep => exact (nestsFrom_next_of isStep rfl).returning
      next isStep => exact (nestsFrom_next_of isStep rfl).returning
      next => exact nests_pure _ state

omit nests in
theorem nests_expressionOf (wanted : Bytes) (statement : Option Stmt) :
    Nests .any due due (expressionOf wanted statement) := by
  unfold expressionOf
  split
  · exact nests_pure _
  · exact nests_pure _
  · exact nests_complain _ _

theorem nests_deferredCall (keyword : Bytes) : Nests .any due due (deferredCall grammar keyword) := by
  refine (nests_operand nests).bind fun expr => ?_
  dsimp only
  split
  · exact nests_complain _ _
  · split
    · exact nests_pure _
    · exact nests_pure _
    · exact nests_complain _ _

theorem nests_returnStatement : Nests .any due due (returnStatement grammar) := by
  unfold returnStatement
  refine (nests_expect rfl).bind fun place => .look fun atEnd => ?_
  extract_lets rest
  have ofRest (results : List Expr) : Nests .any due due (rest results) :=
    nests_expectSemicolon.returning
  split
  · exact (nests_pure _).bind ofRest
  · exact (nests_exprs nests true).bind ofRest

omit nests in
theorem nests_branchStatement {keyword : Token} (noBracket : dueAfter? due keyword = some due) :
    Nests .any due due (branchStatement keyword) := by
  unfold branchStatement
  refine (nests_expect noBracket).bind fun place => .look fun atName => ?_
  extract_lets rest
  have ofRest (label : Option Ident) : Nests .any due due (rest label) :=
    nests_expectSemicolon.returning
  split
  · exact nests_ident.bind fun _ => (nests_pure _).bind ofRest
  · exact (nests_pure _).bind ofRest

theorem nests_ifHeader : Nests .any due due (ifHeader grammar) := by
  unfold ifHeader
  refine .look fun place => .look fun atBrace => ?_
  split
  · exact nests_complain _ _
  · refine Nests.withLevel (.look fun atSemicolon => ?_) _
    extract_lets ofParts ofFirst ofInit
    have nestsParts (parts : Option Stmt × Option Stmt × Option Lexeme) :
        Nests .any due due (ofParts parts) := by
      dsimp only [ofParts]
      split
      · exact nests_complain _ _
      · exact (nests_expressionOf _ _).bind fun _ => .look fun _ => .look fun _ => nests_pure _
    have nestsFirst (first : Option Stmt) : Nests .any due due (ofFirst first) := by
      refine .look fun atBody => ?_
      split
      · exact (nests_pure _).bind nestsParts
      · refine fun state => .get ?_
        extract_lets current ofSemicolon
        have nestsSemicolon (semicolon? : Option Lexeme) : Nests .any due due
            (ofSemicolon semicolon?) := by
          refine .look fun atBody => ?_
          dsimp only
          split
          · exact (nests_pure _).bind fun _ => (nests_pure _).bind nestsParts
          · refine (nests_simpleStatement nests .basic).bind fun _ => ?_
            exact (nests_pure _).bind fun _ => (nests_pure _).bind nestsParts
        split
        next isSemicolon =>
          refine NestsFrom.bind (nestsFrom_next ?_) fun _ => (nests_pure _).bind nestsSemicolon
          rw [show state.current.token = .semicolon from isSemicolon]
          rfl
        next => exact ((nests_expect rfl).bind fun _ => (nests_pure _).bind nestsSemicolon) state
    split
    · exact (nests_pure _).bind nestsFirst
    · refine fun state => .look ?_
      split
      next isVar =>
        exact (nestsFrom_next_at isVar rfl).bind fun _ => .look fun _ => nests_complain _ _
      next =>
        exact (nests_simpleStatement nests .basic state).bind fun _ => (nests_pure _).bind nestsFirst

theorem nests_ifStatement : Nests .any due due (ifStatement grammar) := by
  unfold ifStatement
  refine (nests_expect rfl).bind fun place => (nests_ifHeader nests).bind fun header => ?_
  refine (nests_block nests).bind fun body state => .look ?_
  extract_lets rest
  have ofRest (otherwise : Option Stmt) : Nests .any due due (rest otherwise) := nests_pure _
  split
  next isElse =>
    refine (nestsFrom_next_at isElse rfl).bind fun _ => .look fun word => ?_
    split
    · exact (nests.ifStatement due).bind fun _ => (nests_pure _).bind ofRest
    · exact (nests_block nests).bind fun _ => nests_expectSemicolon.bind fun _ =>
        (nests_pure _).bind ofRest
    · exact .look fun _ => nests_complainExpected _ _
  next => exact (nests_expectSemicolon.bind fun _ => (nests_pure _).bind ofRest) state

theorem nests_caseClause : Nests .any due due (caseClause grammar) := by
  unfold caseClause
  refine .look fun place state => .look ?_
  extract_lets rest
  have ofRest (values : List Expr) : Nests .any due due (rest values) :=
    (nests_expect rfl).bind fun _ => (nests_statements nests).returning
  split
  next isCase => exact (nestsFrom_next_at isCase rfl).bind fun _ => (nests_exprs nests true).bind ofRest
  next => exact ((nests_expect rfl).bind fun _ => (nests_pure _).bind ofRest) state

omit nests in
theorem nests_isTypeSwitchGuard (statement : Option Stmt) :
    Nests .any due due (isTypeSwitchGuard statement) := by
  unfold isTypeSwitchGuard
  split
  · exact nests_pure _
  · dsimp only
    split
    · split
      · exact nests_complain _ _
      · exact nests_pure _
    · exact nests_pure _
  · exact nests_pure _

omit nests in
theorem nests_clauses {clause : Parse Stmt} (ofClause : ∀ due, Nests .any due due clause) :
    Nests .any due due (clauses clause) := by
  unfold clauses
  refine (nests_expect rfl).bind fun opening => (Nests.many nests_look (ofClause _)).bind fun list => ?_
  exact (nests_expect rfl).bind fun _ => nests_expectSemicolon.returning

theorem nests_switchStatement : Nests .any due due (switchStatement grammar) := by
  unfold switchStatement
  refine (nests_expect rfl).bind fun place => .look fun atBrace => ?_
  extract_lets rest ofFirst
  have ofRest (parts : Option Stmt × Option Stmt) : Nests .any due due (rest parts) := by
    refine (nests_isTypeSwitchGuard _).bind fun isTypeSwitch => ?_
    refine (nests_clauses fun _ => nests_caseClause nests).bind fun body => ?_
    split
    · exact nests_pure _
    · exact (nests_expressionOf _ _).returning
  split
  · exact (nests_pure _).bind ofRest
  · have nestsFirst (first : Option Stmt) : Nests .any due due (ofFirst first) := by
      refine fun state => .look ?_
      split
      next isSemicolon =>
        refine (nestsFrom_next_at isSemicolon rfl).bind fun _ => .look fun atBody => ?_
        split
        · exact nests_pure _
        · exact (nests_simpleStatement nests .basic).returning
      next => exact nests_pure _ state
    refine (Nests.withLevel (.look fun atSemicolon => ?_) _).bind ofRest
    split
    · exact (nests_pure _).bind nestsFirst
    · exact (nests_simpleStatement nests .basic).bind fun _ => (nests_pure _).bind nestsFirst

theorem nests_communication : Nests .any due due (communication grammar) := by
  refine (nests_exprs nests false).bind fun left state => .get ?_
  dsimp only
  split
  next isArrow =>
    split
    · exact nests_complainExpected _ _ state
    · refine (nestsFrom_next_of isArrow rfl).bind fun _ => ?_
      exact (nests_operand nests).returning
  next isSign =>
    split
    · exact nests_complainExpected _ _ state
    · refine (nestsFrom_next_of isSign rfl).bind fun _ => ?_
      exact (nests_operand nests).returning
  next isSign =>
    split
    · exact nests_complainExpected _ _ state
    · refine (nestsFrom_next_of isSign rfl).bind fun _ => ?_
      exact (nests_operand nests).returning
  next =>
    split
    · exact nests_complainExpected _ _ state
    · exact nests_pure _ state

theorem nests_commClause : Nests .any due due (commClause grammar) := by
  unfold commClause
  refine .look fun place state => .look ?_
  extract_lets rest
  have ofRest (communication : Option Stmt) : Nests .any due due (rest communication) :=
    (nests_expect rfl).bind fun _ => (nests_statements nests).returning
  split
  next isCase =>
    refine (nestsFrom_next_at isCase rfl).bind fun _ => ?_
    exact (nests_communication nests).bind fun _ => (nests_pure _).bind ofRest
  next => exact ((nests_expect rfl).bind fun _ => (nests_pure _).bind ofRest) state

theorem nests_forHeader : Nests .any due due (forHeader grammar) := by
  refine .look fun atBrace => ?_
  split
  · exact nests_pure _
  · refine Nests.withLevel (fun state => .look ?_) _
    split
    next isRange => exact (nestsFrom_rangeClause nests (eq_of_beq isRange)).returning
    next =>
      refine Nests.look (fun atSemicolon => ?_) state
      extract_lets ofFirst
      have nestsFirst (first : Option Stmt) : Nests .any due due (ofFirst first) := by
        refine fun state => .look ?_
        split
        next isSemicolon =>
          refine (nestsFrom_next_at isSemicolon rfl).bind fun _ => .look fun noCondition => ?_
          extract_lets ofCondition
          have nestsCondition (condition : Option Stmt) : Nests .any due due
              (ofCondition condition) := by
            refine nests_expectSemicolon.bind fun _ => .look fun atBody => ?_
            dsimp only
            split
            · exact (nests_pure _).returning
            · refine (nests_simpleStatement nests .basic).bind fun _ => ?_
              exact (nests_pure _).returning
          split
          · exact (nests_pure _).bind nestsCondition
          · refine .look fun atBody => ?_
            split
            · exact .look fun _ => nests_complainExpected _ _
            · exact (nests_simpleStatement nests .basic).bind fun _ => (nests_pure _).bind nestsCondition
        next => exact nests_pure _ state
      split
      · exact (nests_pure _).bind nestsFirst
      · refine (nests_simpleStatement nests .rangeAllowed).bind fun parts => ?_
        dsimp only
        split
        · exact nests_pure _
        · exact (nests_pure _).bind nestsFirst

theorem nests_forStatement : Nests .any due due (forStatement grammar) := by
  unfold forStatement
  refine (nests_expect rfl).bind fun place => (nests_forHeader nests).bind fun header => ?_
  refine (nests_block nests).bind fun body => nests_expectSemicolon.bind fun _ => ?_
  split
  · exact (nests_expressionOf _ _).returning
  · dsimp only
    split
    · exact nests_pure _
    · exact nests_pure _
    · exact nests_pure _
    · exact nests_complainExpected _ _

theorem nests_statement : Nests .any due due (statement grammar) := by
  intro state
  refine .get ?_
  dsimp only
  have declares {keyword : Token} (isKeyword : state.current.token = keyword)
      (noImport : keyword ≠ .kwImport) (noBracket : ∀ due, dueAfter? due keyword = some due) :
      NestsFrom .any state due due (do
        return .declaration (← declGroup grammar state.current.token) : Parse Stmt) := by
    rw [isKeyword]
    exact (nests_declGroup nests noImport noBracket state).returning
  split
  next isConst => exact declares isConst (by decide) fun _ => rfl
  next isType => exact declares isType (by decide) fun _ => rfl
  next isVar => exact declares isVar (by decide) fun _ => rfl
  next =>
    refine (nests_expect rfl).bind (fun place => (nests_deferredCall nests _).bind fun call => ?_) state
    exact nests_expectSemicolon.returning
  next =>
    refine (nests_expect rfl).bind (fun place => (nests_deferredCall nests _).bind fun call => ?_) state
    exact nests_expectSemicolon.returning
  next => exact nests_returnStatement nests state
  next isBreak => exact nests_branchStatement (by rw [isBreak]; rfl) state
  next isContinue => exact nests_branchStatement (by rw [isContinue]; rfl) state
  next isGoto => exact nests_branchStatement (by rw [isGoto]; rfl) state
  next isFallthrough => exact nests_branchStatement (by rw [isFallthrough]; rfl) state
  next =>
    exact (nests_block nests state).bind fun _ => nests_expectSemicolon.returning
  next => exact nests.ifStatement due state
  next => exact nests_switchStatement nests state
  next =>
    refine (nests_expect rfl).bind (fun place => ?_) state
    exact (nests_clauses fun _ => nests_commClause nests).returning
  next => exact nests_forStatement nests state
  next isSemicolon => exact (nestsFrom_next_of isSemicolon rfl).returning
  next => exact nests_pure _ state
  next =>
    split
    · refine (nests_simpleStatement nests .labelAllowed).bind (fun parts => ?_) state
      split
      · exact nests_pure _
      · exact nests_expectSemicolon.returning
    · exact nests_complainExpected _ _ state

end Statements
end Parse

/-! ## The grammar of a depth -/

theorem Grammar.nests_exhausted : exhausted.Nests where
  binary _ _ := .look fun _ => Parse.nests_complain _ _
  unary _ := .look fun _ => Parse.nests_complain _ _
  type? _ := Parse.Nests.nestsIf (.look fun _ => Parse.nests_complain _ _)
  literalValue _ _ := .look fun _ => Parse.nests_complain _ _
  statement _ := .look fun _ => Parse.nests_complain _ _
  ifStatement _ := .look fun _ => Parse.nests_complain _ _

theorem Grammar.Nests.above {below : Grammar} (nests : below.Nests) : below.above.Nests where
  binary some _ := Parse.nests_binary nests some
  unary _ := Parse.nests_unary nests
  type? _ := Parse.nests_type? nests
  literalValue type _ := Parse.nests_literalValue nests type
  statement _ := Parse.nests_statement nests
  ifStatement _ := Parse.nests_ifStatement nests

theorem Grammar.nests_ofDepth (depth : Nat) : (ofDepth depth).Nests := by
  induction depth with
  | zero => exact nests_exhausted
  | succ depth ih => exact ih.above

end Source
end CaseExpansion
