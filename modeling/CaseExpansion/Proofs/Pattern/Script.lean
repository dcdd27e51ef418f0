import CaseExpansion.Pattern.Run

namespace CaseExpansion
namespace Pattern

open List

/-!
# Patterns without variables

Patterns that only select fields, quote texts and go through lists can be
understood without running them.  `Script` is the form of such patterns: it has no
offsets, no sites for messages and no state, and `Script.text?` gives its meaning as
a plain function of the data.  A pattern that has a script writes what the script
says (`nodes_gives`), and never fails where the script has a meaning.

The root of the data is the value of the variable `$`, the only one that such
patterns know.
-/

/-- A value that a pattern without variables refers to. -/
inductive Term where
  /-- A field of a field, and so on, of the root or of the current value. -/
  | access (fromRoot : Bool) (names : List Bytes)
  /-- The same, for a text that is written in quotation marks. -/
  | quoted (names : List Bytes)
deriving DecidableEq, Repr

/-- What a pattern without variables does, one step after another. -/
inductive Script where
  | done
  | text (text : Bytes) (rest : Script)
  | shown (term : Term) (rest : Script)
  | each (list : Term) (body otherwise rest : Script)
  | given (term : Term) (body rest : Script)
deriving DecidableEq, Repr

/-! ## Scripts of patterns -/

/-- The term of an operand. -/
def Operand.term? : Operand → Option Term
  | .dot _ => some (.access false [])
  | .field _ names => some (.access false names)
  | .variable _ (root :: names) => if root = ("$" : Bytes) then some (.access true names) else none
  | _ => none

/-- The term of a pipeline that is a single command. -/
def PipelineOf.term? (pipeline : Pipeline) : Option Term :=
  match pipeline with
  | ⟨_, false, [], [⟨_, [operand]⟩]⟩ => operand.term?
  | ⟨_, false, [], [⟨_, [.function _ name, .string _ _ format, .field _ names]⟩]⟩ =>
    if name = ("printf" : Bytes) ∧ format = ("%q" : Bytes) then some (.quoted names) else none
  | _ => none

mutual
/-- The script of a node, with the steps after it. -/
def Node.script? : Node → Script → Option Script
  | .text _ text, rest => some (.text text rest)
  | .action _ pipeline, rest => pipeline.term?.map fun term => .shown term rest
  | .choice .with_ _ pipeline body none, rest => do
    return .given (← pipeline.term?) (← nodesScript? body) rest
  | .range _ pipeline body otherwise, rest => do
    return .each (← pipeline.term?) (← nodesScript? body) (← otherwiseScript? otherwise) rest
  | _, _ => none
termination_by structural node => node

/-- The script of nodes. -/
def nodesScript? : List Node → Option Script
  | [] => some .done
  | node :: nodes => do node.script? (← nodesScript? nodes)
termination_by structural nodes => nodes

/-- The script of the other branch. -/
def otherwiseScript? : Option (List Node) → Option Script
  | none => some .done
  | some nodes => nodesScript? nodes
termination_by structural nodes? => nodes?
end

/-! ## The meaning of scripts -/

/-- Selects fields one after another. -/
def Value.fields? : Value → List Bytes → Option Value
  | value, [] => some value
  | value, name :: names =>
    match value, value.follow.select? name with
    | .absent, _ => none
    | _, some (.field field) => field.fields? names
    | _, _ => none

/-- The value of a term. -/
def Term.value? (root current : Value) : Term → Option Value
  | .access fromRoot names => (if fromRoot then root else current).fields? names
  | .quoted names =>
    match current.fields? names with
    | some (.text text) => some (.text (Text.Quoted.encode text))
    | _ => none

/-- The elements of a list. -/
def Value.elements? (value : Value) : Option (List Value) :=
  match value.follow with
  | .list _ _ elements => some elements
  | _ => none

/-- The text that a script writes. -/
def Script.text? (root : Value) : Script → Value → Option Bytes
  | .done, _ => some []
  | .text piece rest, current => (rest.text? root current).map (piece ++ ·)
  | .shown term rest, current =>
    (term.value? root current).bind fun value =>
      (rest.text? root current).map (Run.shown value ++ ·)
  | .each list body otherwise rest, current =>
    ((list.value? root current).bind Value.elements?).bind fun elements =>
      (if elements.isEmpty then otherwise.text? root current
        else (elements.mapM (body.text? root)).map List.flatten).bind fun text =>
        (rest.text? root current).map (text ++ ·)
  | .given term body rest, current =>
    (term.value? root current).bind fun value =>
      (if value.isTrue then body.text? root value else some []).bind fun text =>
        (rest.text? root current).map (text ++ ·)

/-! ## Running patterns -/

namespace Run

/-- A step gives a value and writes a text, whenever `$` is the only variable and has
the given value, and leaves it so. -/
def Gives {α : Type} (root : Value) (run : Run α) (value : α) (text : Bytes) : Prop :=
  ∀ self state, state.scope = [(("$" : Bytes), root)] → ∃ later, run self state = .ok (value, later) ∧
    later.scope = [(("$" : Bytes), root)] ∧
    later.written.reverse.flatten = state.written.reverse.flatten ++ text

variable {α β : Type} {root : Value}

theorem Gives.pure (value : α) : Gives root (Pure.pure value) value [] :=
  fun _ state scope => ⟨state, rfl, scope, (append_nil _).symm⟩

variable {value current : Value} {text : Bytes} {term : Term} {part : Pipeline}

theorem Gives.bind {first : Run α} {next : α → Run β} {value : α} {result : β} {more : Bytes}
    (ofFirst : Gives root first value text) (ofNext : Gives root (next value) result more) :
    Gives root (first >>= next) result (text ++ more) := by
  intro self state scope
  rcases ofFirst self state scope with ⟨middle, ran, middleScope, middleText⟩
  rcases ofNext self middle middleScope with ⟨later, ranNext, laterScope, laterText⟩
  refine ⟨later, ?_, laterScope, ?_⟩
  · change (first self state >>= fun outcome => next outcome.1 self outcome.2) = _
    rw [ran]
    exact ranNext
  · rw [laterText, middleText, append_assoc]

/-- A step after one that writes nothing. -/
theorem Gives.after {first : Run α} {next : α → Run β} {value : α} {result : β}
    (ofFirst : Gives root first value []) (ofNext : Gives root (next value) result text) :
    Gives root (first >>= next) result text :=
  ofFirst.bind ofNext

/-- A step whose value is replaced. -/
theorem Gives.returning {run : Run α} {value : α} (ofRun : Gives root run value text) (result : β) :
    Gives root (run >>= fun _ => Pure.pure result) result text := by
  have whole : Gives root (run >>= fun _ => Pure.pure result) result (text ++ []) :=
    ofRun.bind (Gives.pure result)
  rwa [append_nil] at whole

theorem look_gives (site : Site) : Gives root (look site) () [] :=
  fun _ state scope => ⟨{ state with site }, rfl, scope, (append_nil _).symm⟩

theorem write_gives (text : Bytes) : Gives root (write text) () text := by
  intro self state scope
  refine ⟨{ state with written := text :: state.written }, rfl, scope, ?_⟩
  rw [reverse_cons, flatten_append, flatten_singleton]

theorem valueOf_gives : Gives root (valueOf "$") root [] := by
  intro self state scope
  refine ⟨state, ?_, scope, (append_nil _).symm⟩
  cases state
  cases scope
  rfl

theorem mark_gives : Gives root mark 1 [] := by
  intro self state scope
  refine ⟨state, ?_, scope, (append_nil _).symm⟩
  change Except.ok (state.scope.length, state) = _
  rw [scope]
  rfl

theorem pop_gives : Gives root (pop 1) () [] := by
  intro self state scope
  refine ⟨{ state with scope := state.scope.drop (state.scope.length - 1) }, rfl, ?_,
    (append_nil _).symm⟩
  change state.scope.drop (state.scope.length - 1) = _
  rw [scope]
  rfl

theorem inScope_gives {run : Run α} {value : α} (ofRun : Gives root run value text) :
    Gives root (inScope run) value text := by
  have whole : Gives root (inScope run) value (text ++ []) :=
    mark_gives.after (ofRun.bind (pop_gives.after (Gives.pure value)))
  rwa [append_nil] at whole

/-! ### Values -/

theorem select_gives {receiver : Value} {name : Bytes} (present : receiver ≠ .absent)
    (isField : receiver.follow.select? name = some (.field value)) :
    Gives root (select name 0 receiver) value [] := by
  have same : select name 0 receiver = Pure.pure value := by
    cases receiver with
    | absent => exact absurd rfl present
    | bool | integer | real | complex | text | position | list | record | pointer =>
      rw [select, isField]
      · rfl
      · intro impossible
        cases impossible
  rw [same]
  exact Gives.pure value

theorem selectAll_gives {receiver : Value} {names : List Bytes}
    (isValue : receiver.fields? names = some value) :
    Gives root (selectAll 0 receiver names) value [] := by
  induction names generalizing receiver with
  | nil =>
    cases isValue
    exact Gives.pure _
  | cons name names ih =>
    unfold Value.fields? at isValue
    split at isValue
    next => cases isValue
    next field present isField =>
      have selected : Gives root (select name 0 _) field [] := select_gives present isField
      cases names with
      | nil =>
        cases isValue
        exact selected
      | cons second names => exact selected.after (ih isValue)
    next => cases isValue

theorem value_gives {operand : Operand} (isTerm : operand.term? = some term)
    (isValue : term.value? root current = some value) :
    Gives root (Run.value current 0 operand) value [] := by
  cases operand with
  | dot offset =>
    cases isTerm
    cases isValue
    exact (look_gives _).after ((Gives.pure ()).after (Gives.pure _))
  | field offset names =>
    cases isTerm
    exact (look_gives _).after (selectAll_gives isValue)
  | «variable» offset names =>
    cases names with
    | nil => cases isTerm
    | cons name names =>
      change (if name = ("$" : Bytes) then some (Term.access true names) else none) = _ at isTerm
      split at isTerm
      next isRoot =>
        cases isTerm
        cases isRoot
        refine (look_gives _).after (valueOf_gives.after ?_)
        cases names with
        | nil =>
          cases isValue
          exact (Gives.pure ()).after (Gives.pure _)
        | cons name names => exact selectAll_gives isValue
      next => cases isTerm
  | nil | bool | number | string | function | chain | parens => cases isTerm

/-- The text that `printf` makes of a text, in quotation marks. -/
theorem formatBy_quoted (text : Bytes) : formatBy "%q" [.text text] = Text.Quoted.encode text := by
  have unflagged : formatBy "%q" [.text text] = VerbSpec.pad {} (Text.Quoted.encode text) ++ [] := rfl
  rw [unflagged, VerbSpec.pad]
  simp

theorem formatPlain_text (text : Bytes) : formatPlain (.text text) = text := by
  have unflagged : formatPlain (.text text) = VerbSpec.pad {} text := rfl
  rw [unflagged, VerbSpec.pad]
  simp

theorem pipeline_gives_of_command {offset : Nat} {stage : Command}
    (ofStage : Gives root (command current none stage) value []) :
    Gives root (pipeline current ⟨offset, false, [], [stage]⟩) value [] :=
  (look_gives _).after
    ((ofStage.after (Gives.pure (some value))).after ((Gives.pure ()).after (Gives.pure value)))

/-- The value of a text that is written in quotation marks. -/
theorem quoted_gives {offset place stringPlace fieldPlace : Nat} {written : Bytes} {names : List Bytes}
    (isText : current.fields? names = some (.text text)) :
    Gives root (command current none ⟨offset, [.function place "printf",
      .string stringPlace written "%q", .field fieldPlace names]⟩)
      (.text (Text.Quoted.encode text)) [] := by
  have ofFormat : Gives root (argument current true (.string stringPlace written "%q"))
      (.text "%q") [] :=
    (look_gives _).after (Gives.pure _)
  have ofField : Gives root (argument current false (.field fieldPlace names)) (.text text) [] :=
    (look_gives _).after ((selectAll_gives isText).after (Gives.pure _))
  have ofFields : Gives root (arguments current false [.field fieldPlace names]) [.text text] [] := by
    refine ofField.after ?_
    exact (Gives.pure []).after (Gives.pure [Value.text text])
  have ofArguments : Gives root (arguments current true
      [.string stringPlace written "%q", .field fieldPlace names]) [.text "%q", .text text] [] :=
    ofFormat.after (ofFields.after (Gives.pure _))
  rw [← formatBy_quoted]
  exact (look_gives _).after ((Gives.pure ()).after (ofArguments.after
    ((Gives.pure []).after (Gives.pure _))))

theorem pipeline_gives (isTerm : part.term? = some term)
    (isValue : term.value? root current = some value) :
    Gives root (pipeline current part) value [] := by
  unfold PipelineOf.term? at isTerm
  split at isTerm
  next offset place operand =>
    refine pipeline_gives_of_command ?_
    cases operand with
    | function => cases isTerm
    | dot | field | «variable» | nil | bool | number | string | chain | parens =>
      exact value_gives isTerm isValue
  next offset place namePlace name stringPlace written format fieldPlace names =>
    split at isTerm
    next isQuoted =>
      cases isTerm
      rcases isQuoted with ⟨rfl, rfl⟩
      dsimp only [Term.value?] at isValue
      split at isValue
      next text isText =>
        cases isValue
        exact pipeline_gives_of_command (quoted_gives isText)
      next => cases isValue
    next => cases isTerm
  next => cases isTerm

/-! ### Nodes -/

theorem declared_of_term? (isTerm : part.term? = some term) : part.declared = [] := by
  unfold PipelineOf.term? at isTerm
  split at isTerm
  next => rfl
  next => rfl
  next => cases isTerm

theorem startRound_gives (noVariables : part.declared = []) (index element : Value) :
    Gives root (startRound part index element) () [] := by
  unfold startRound
  rw [noVariables]
  exact Gives.pure ()

/-- The rounds of a loop write what they write one by one. -/
theorem loop_gives (noVariables : part.declared = []) {body : Value → Run Signal}
    {meaning : Value → Option Bytes}
    (ofBody : ∀ element text, meaning element = some text → Gives root (body element) .next text)
    {rounds : List (Value × Value)} {texts : List Bytes}
    (isMeaning : (rounds.map Prod.snd).mapM meaning = some texts) :
    Gives root (loop part body 1 rounds) () texts.flatten := by
  induction rounds generalizing texts with
  | nil =>
    cases isMeaning
    exact Gives.pure ()
  | cons round rounds ih =>
    rcases round with ⟨index, element⟩
    rw [map_cons, mapM_cons] at isMeaning
    cases first : meaning element with
    | none =>
      rw [first] at isMeaning
      cases isMeaning
    | some text =>
      cases later : (rounds.map Prod.snd).mapM meaning with
      | none =>
        rw [first, later] at isMeaning
        cases isMeaning
      | some more =>
        rw [first, later] at isMeaning
        cases isMeaning
        exact (startRound_gives noVariables index element).after
          ((ofBody element text first).bind (pop_gives.after (ih later)))

theorem rounds_gives (root : Value) (isPair : Bool) {elements : List Value}
    (isList : value.elements? = some elements) :
    ∃ pairs, Gives root (rounds isPair value) pairs [] ∧ pairs.map Prod.snd = elements := by
  unfold Value.elements? at isList
  split at isList
  next type members follows =>
    cases isList
    refine ⟨elements.zipIdx.map fun entry => (.int entry.2, entry.1), ?_, ?_⟩
    · unfold rounds
      rw [follows]
      exact Gives.pure _
    · rw [map_map]
      exact zipIdx_map_fst 0 elements
  next => cases isList

variable {named : List (Bytes × List Node)} {caller : Caller}

mutual
/-- A node writes the first part of its script's text. -/
theorem node_gives {current : Value} (node : Node) {rest script : Script} {text : Bytes}
    (isScript : node.script? rest = some script) (isText : script.text? root current = some text) :
    ∃ first later, Gives root (Run.node named caller current node) .next first ∧
      rest.text? root current = some later ∧ text = first ++ later := by
  cases node with
  | text offset piece =>
    cases isScript
    rcases Option.map_eq_some_iff.mp isText with ⟨later, isLater, rfl⟩
    refine ⟨piece, later, ?_, isLater, rfl⟩
    exact (look_gives _).after ((write_gives piece).returning _)
  | action offset part =>
    rcases Option.map_eq_some_iff.mp isScript with ⟨term, isTerm, rfl⟩
    rcases Option.bind_eq_some_iff.mp isText with ⟨value, isValue, isText⟩
    rcases Option.map_eq_some_iff.mp isText with ⟨later, isLater, rfl⟩
    refine ⟨shown value, later, ?_, isLater, rfl⟩
    refine (look_gives _).after ((pipeline_gives isTerm isValue).after ?_)
    rw [declared_of_term? isTerm]
    exact (look_gives _).after ((write_gives _).returning _)
  | choice kind offset part body otherwise =>
    cases kind with
    | if_ => cases isScript
    | with_ =>
      cases otherwise with
      | some otherwise => cases isScript
      | none =>
        rcases Option.bind_eq_some_iff.mp isScript with ⟨term, isTerm, isScript⟩
        rcases Option.bind_eq_some_iff.mp isScript with ⟨bodyScript, isBody, isScript⟩
        cases isScript
        rcases Option.bind_eq_some_iff.mp isText with ⟨value, isValue, isText⟩
        rcases Option.bind_eq_some_iff.mp isText with ⟨first, isFirst, isText⟩
        rcases Option.map_eq_some_iff.mp isText with ⟨later, isLater, rfl⟩
        refine ⟨first, later, inScope_gives ((look_gives _).after
          ((pipeline_gives isTerm isValue).after ?_)), isLater, rfl⟩
        split at isFirst
        next isTrue =>
          rw [isTrue]
          exact nodes_gives body isBody isFirst
        next notTrue =>
          cases isFirst
          rw [Bool.not_eq_true] at notTrue
          rw [notTrue]
          exact Gives.pure _
  | range offset part body otherwise =>
    rcases Option.bind_eq_some_iff.mp isScript with ⟨term, isTerm, isScript⟩
    rcases Option.bind_eq_some_iff.mp isScript with ⟨bodyScript, isBody, isScript⟩
    rcases Option.bind_eq_some_iff.mp isScript with ⟨otherScript, isOther, isScript⟩
    cases isScript
    rcases Option.bind_eq_some_iff.mp isText with ⟨elements, isList, isText⟩
    rcases Option.bind_eq_some_iff.mp isList with ⟨value, isValue, isList⟩
    rcases Option.bind_eq_some_iff.mp isText with ⟨first, isFirst, isText⟩
    rcases Option.map_eq_some_iff.mp isText with ⟨later, isLater, rfl⟩
    rcases rounds_gives root (part.declared.length > 1) isList with ⟨pairs, ofRounds, rfl⟩
    refine ⟨first, later, inScope_gives ((look_gives _).after ((pipeline_gives isTerm isValue).after
      (mark_gives.after (ofRounds.after ?_)))), isLater, rfl⟩
    cases pairs with
    | nil => exact nodesOrNone_gives otherwise isOther isFirst
    | cons pair pairs =>
      rcases Option.map_eq_some_iff.mp isFirst with ⟨texts, isMeaning, rfl⟩
      exact (loop_gives (declared_of_term? isTerm)
        (fun element text => nodes_gives body isBody) isMeaning).returning _
  | call | break_ | continue_ => cases isScript
termination_by structural node

theorem nodes_gives {current : Value} (nodes : List Node) {script : Script} {text : Bytes}
    (isScript : nodesScript? nodes = some script) (isText : script.text? root current = some text) :
    Gives root (Run.nodes named caller current nodes) .next text := by
  cases nodes with
  | nil =>
    cases isScript
    cases isText
    exact Gives.pure _
  | cons node nodes =>
    rcases Option.bind_eq_some_iff.mp isScript with ⟨rest, isRest, isScript⟩
    rcases node_gives node isScript isText with ⟨first, later, ofNode, isLater, rfl⟩
    exact ofNode.bind (nodes_gives nodes isRest isLater)
termination_by structural nodes

theorem nodesOrNone_gives {current : Value} (nodes? : Option (List Node)) {script : Script}
    {text : Bytes}
    (isScript : otherwiseScript? nodes? = some script) (isText : script.text? root current = some text) :
    Gives root (nodesOrNone named caller current nodes?) .next text := by
  cases nodes? with
  | none =>
    cases isScript
    cases isText
    exact Gives.pure _
  | some nodes => exact nodes_gives nodes isScript isText
termination_by structural nodes?
end

end Run

namespace Compiled

/-- The script of a pattern, if it has one. -/
def script? (pattern : Compiled) : Option Script :=
  nodesScript? (((pattern.named.find? fun (entry : Bytes × List Node) =>
    entry.1 == pattern.name).map Prod.snd).getD [])

theorem run_eq {pattern : Compiled} {script : Script} {data : Value} {text : Bytes}
    (isScript : pattern.script? = some script) (isText : script.text? data data = some text) :
    pattern.run data = .ok text := by
  have gives : Run.Gives data (Run.nodes pattern.named (Run.caller pattern.named maxDepth) data _)
      .next text := Run.nodes_gives _ isScript isText
  rcases gives pattern.name { scope := [("$", data)], site := .node (.text 0 []) } rfl with
    ⟨later, ran, _, written⟩
  unfold run
  dsimp only
  rw [ran]
  exact congrArg Except.ok written

end Compiled

/-! ## The texts of steps -/

namespace Script

variable {root current : Value}

theorem text?_done : Script.done.text? root current = some [] :=
  rfl

theorem text?_text (piece : Bytes) (rest : Script) :
    (Script.text piece rest).text? root current = (rest.text? root current).map (piece ++ ·) :=
  rfl

theorem text?_shown {term : Term} {text : Bytes} (isValue : term.value? root current = some (.text text))
    (rest : Script) :
    (Script.shown term rest).text? root current = (rest.text? root current).map (text ++ ·) := by
  rw [text?, isValue, Option.bind_some]
  exact congrArg (fun shown => (rest.text? root current).map (shown ++ ·)) (Run.formatPlain_text text)

variable {body : Script} {place : Nat → Nat} {type : Bytes}

/-- A loop writes what its body writes for every element. -/
theorem text?_each {α : Type} {list : Term} {otherwise : Script} {members : List α}
    {toValue : α → Value} {ofMember : α → Bytes} {instead : Bytes}
    (isList : list.value? root current = some (.list place type (members.map toValue)))
    (ofBody : ∀ member, body.text? root (toValue member) = some (ofMember member))
    (isInstead : otherwise.text? root current = some instead) (rest : Script) :
    (Script.each list body otherwise rest).text? root current =
      (rest.text? root current).map
        ((if members.isEmpty then instead else members.flatMap ofMember) ++ ·) := by
  have ofAll : (members.map toValue).mapM (body.text? root) = some (members.map ofMember) := by
    clear isList
    induction members with
    | nil => rfl
    | cons member members ih =>
      rw [map_cons, mapM_cons, ofBody, ih]
      rfl
  have elements : (Value.list place type (members.map toValue)).elements? =
      some (members.map toValue) := rfl
  rw [text?, isList, Option.bind_some, elements, Option.bind_some, ofAll, isInstead, isEmpty_map,
    flatMap_def]
  split <;> rfl

/-- A loop without another branch writes nothing for an empty list. -/
theorem text?_each_done {α : Type} {list : Term} {members : List α} {toValue : α → Value}
    {ofMember : α → Bytes}
    (isList : list.value? root current = some (.list place type (members.map toValue)))
    (ofBody : ∀ member, body.text? root (toValue member) = some (ofMember member)) (rest : Script) :
    (Script.each list body .done rest).text? root current =
      (rest.text? root current).map (members.flatMap ofMember ++ ·) := by
  rw [text?_each isList ofBody text?_done]
  cases members <;> rfl

/-- A text is written with its surroundings unless it is empty. -/
theorem text?_given {term : Term} {text inner : Bytes}
    (isValue : term.value? root current = some (.text text))
    (ofBody : body.text? root (.text text) = some inner) (rest : Script) :
    (Script.given term body rest).text? root current =
      (rest.text? root current).map ((if text.isEmpty then [] else inner) ++ ·) := by
  rw [text?, isValue, Option.bind_some, ofBody, Value.isTrue]
  cases text <;> rfl

end Script
end Pattern
end CaseExpansion
