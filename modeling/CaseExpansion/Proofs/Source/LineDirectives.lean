import CaseExpansion.Proofs.Source.Stretches

namespace CaseExpansion
namespace Source

open List

/-!
# Comments that are no faulty line directives

A comment adds a fault to its text when it has the form of a line directive and its
numbers make no sense.  This depends on how the comment is written and on whether it
starts a line.  When a text is put into a longer one, its comments are written as before,
and none of them starts a line that did not start one: at most the first comment ceases to.
-/

/-! ## Line starts -/

variable {place : Nat}

theorem mem_after_iff {offset : Nat} {text : Bytes} : place ∈ lineStarts.after offset text ↔
      ∃ index, text[index]? = some (byte '\n') ∧ index + 1 < text.length ∧
      place = offset + index + 1 := by
  induction text generalizing offset with
  | nil => simp [lineStarts.after]
  | cons code rest ih =>
    cases rest with
    | nil => simp [lineStarts.after]
    | cons second rest =>
      have later : place ∈ lineStarts.after (offset + 1) (second :: rest) ↔
          ∃ index, (code :: second :: rest)[index + 1]? = some (byte '\n') ∧
            index + 1 + 1 < (code :: second :: rest).length ∧ place = offset + (index + 1) + 1 := by
        rw [ih]
        refine exists_congr fun index => ?_
        rw [getElem?_cons_succ, length_cons]
        refine and_congr_right fun _ => and_congr ?_ ?_
        · simp only [length_cons]
          omega
        · omega
      have first : (∃ index, (code :: second :: rest)[index]? = some (byte '\n') ∧
          index + 1 < (code :: second :: rest).length ∧ place = offset + index + 1) ↔
          code = byte '\n' ∧ place = offset + 1 ∨ place ∈ lineStarts.after (offset + 1)
            (second :: rest) := by
        rw [later]
        constructor
        · rintro ⟨index, isFeed, inside, isPlace⟩
          cases index with
          | zero => exact .inl ⟨Option.some.inj isFeed, isPlace⟩
          | succ index => exact .inr ⟨index, isFeed, inside, isPlace⟩
        · rintro (⟨isFeed, isPlace⟩ | ⟨index, isFeed, inside, isPlace⟩)
          · exact ⟨0, congrArg some isFeed, Nat.succ_lt_succ (Nat.zero_lt_succ _), isPlace⟩
          · exact ⟨index + 1, isFeed, inside, isPlace⟩
      rw [first, lineStarts.after.eq_def]
      dsimp only
      split
      next isFeed => rw [mem_cons, isFeed, eq_self, true_and]
      next notFeed => rw [or_iff_right fun feed => notFeed feed.1]

/-- A line starts at the start of a text and after every line feed that is not its last byte. -/
theorem mem_lineStarts_iff {text : Bytes} : place ∈ lineStarts text ↔
      place = 0 ∨ ∃ index, text[index]? = some (byte '\n') ∧ index + 1 < text.length ∧
      place = index + 1 := by
  rw [lineStarts, mem_cons, mem_after_iff]
  simp only [Nat.zero_add]

/-- A line that starts inside of a part of a text starts there in the part as well. -/
theorem mem_lineStarts_of_append {front text back : Bytes} (inside : place < text.length)
    (starts : place + front.length ∈ lineStarts (front ++ text ++ back)) : place ∈ lineStarts text := by
  rw [mem_lineStarts_iff] at starts ⊢
  cases place with
  | zero => exact .inl rfl
  | succ place =>
    rcases starts with impossible | ⟨index, isFeed, _, isPlace⟩
    · omega
    · obtain rfl : index = front.length + place := by omega
      rw [append_assoc, getElem?_append_right (Nat.le_add_right _ _), Nat.add_sub_cancel_left,
        getElem?_append_left (by omega)] at isFeed
      exact .inr ⟨place, isFeed, inside, rfl⟩

theorem slice_append {front text back : Bytes} {start stop : Nat} (inside : stop ≤ text.length) :
    Bytes.slice (front ++ text ++ back) (start + front.length) (stop + front.length) =
      Bytes.slice text start stop := by
  rw [Bytes.slice, Bytes.slice, append_assoc, Nat.add_comm start, ← drop_drop, drop_left,
    Nat.add_comm front.length, Nat.add_sub_add_right]
  rcases Nat.le_total start text.length with within | beyond
  · rw [drop_append_of_le_length within, take_append_of_le_length]
    rw [length_drop]
    omega
  · rw [Nat.sub_eq_zero_of_le (by omega), take_zero, take_zero]

namespace LineDirective

/-- A comment that is no line directive, or one that makes sense. -/
def Harmless (text : Bytes) (comment : Lexeme) : Prop :=
  ∀ body next, body? text (lineStarts text) comment = some (body, next) →
    ∃ target?, read (comment.offset + 7) body = .ok target?

/-- Whether a directive makes sense does not depend on where it stands. -/
theorem read_ok {offset : Nat} {text : Bytes} {target? : Option Target}
    (reads : read offset text = .ok target?) (other : Nat) : read other text = .ok target? := by
  unfold read at reads ⊢
  split at reads
  next => exact reads
  next => cases reads
  next =>
    split at reads
    next =>
      dsimp only at reads ⊢
      split at reads
      · cases reads
      next column =>
        split at reads
        · cases reads
        next line => rw [if_neg column, if_neg line, reads]
    next =>
      split at reads
      · cases reads
      next line => rw [if_neg line, reads]

/-- The text of a directive in a part of a text. -/
theorem body?_of_append {front text back : Bytes} {comment : Lexeme} {body : Bytes} {next : Nat}
    (solid : comment.offset < comment.stop) (inside : comment.stop ≤ text.length)
    (isBody : body? (front ++ text ++ back) (lineStarts (front ++ text ++ back))
      (comment.moved front.length) = some (body, next)) :
    ∃ next', body? text (lineStarts text) comment = some (body, next') := by
  have same : Bytes.slice (front ++ text ++ back) (comment.moved front.length).offset
      (comment.moved front.length).stop = Bytes.slice text comment.offset comment.stop :=
    slice_append inside
  unfold body? at isBody ⊢
  rw [same] at isBody
  dsimp only at isBody ⊢
  cases cut : Bytes.cutLead? "//line " (Bytes.slice text comment.offset comment.stop) with
  | some rest =>
    rw [cut] at isBody
    dsimp only at isBody ⊢
    split at isBody
    next starts =>
      have starts := mem_lineStarts_of_append (Nat.lt_of_lt_of_le solid inside)
        (contains_iff_mem.mp starts)
      rw [if_pos (contains_iff_mem.mpr starts)]
      exact ⟨_, congrArg (fun pair => some (pair.1, _)) (Option.some.inj isBody)⟩
    next => cases isBody
  | none =>
    rw [cut] at isBody
    dsimp only at isBody ⊢
    cases general : Bytes.cutLead? "/*line " (Bytes.slice text comment.offset comment.stop) with
    | none =>
      rw [general] at isBody
      cases isBody
    | some rest =>
      rw [general] at isBody
      rcases Option.map_eq_some_iff.mp isBody with ⟨inner, isInner, same⟩
      cases same
      dsimp only
      rw [isInner]
      exact ⟨_, rfl⟩

/-- Comments stay harmless when their text is put into a longer one. -/
theorem Harmless.moved {front text back : Bytes} {comment : Lexeme} (harmless : Harmless text comment)
    (solid : comment.offset < comment.stop) (inside : comment.stop ≤ text.length) :
    Harmless (front ++ text ++ back) (comment.moved front.length) := by
  intro body next isBody
  rcases body?_of_append solid inside isBody with ⟨next, isBody⟩
  rcases harmless body next isBody with ⟨target?, reads⟩
  exact ⟨target?, read_ok reads _⟩

/-! ## Whole texts -/

variable {state : LineTable × List Lexeme}

theorem harmless_of_step {filename text : Bytes} {lexeme : Lexeme}
    (faultless : ∀ other ∈ (step filename text (lineStarts text) state lexeme).2, other.faults = [])
    (isComment : lexeme.token = .comment) : Harmless text lexeme := by
  intro body next isBody
  unfold step at faultless
  dsimp only at faultless
  rw [if_neg (not_not.mpr isComment), isBody] at faultless
  dsimp only at faultless
  cases reads : read (lexeme.offset + 7) body with
  | ok target? => exact ⟨target?, rfl⟩
  | error fault =>
    rw [reads] at faultless
    have impossible := (forall_mem_cons.mp faultless).1
    exact absurd (append_eq_nil_iff.mp impossible).2 (cons_ne_nil _ _)

theorem step_of_harmless {filename text : Bytes} {lexeme : Lexeme}
    (harmless : lexeme.token = .comment → Harmless text lexeme) :
    (step filename text (lineStarts text) state lexeme).2 = lexeme :: state.2 := by
  unfold step
  dsimp only
  split
  · rfl
  next isComment =>
    split
    · rfl
    next body next isBody =>
      rcases harmless (not_not.mp isComment) body next isBody with ⟨target?, reads⟩
      rw [reads]
      cases target? with
      | none => rfl
      | some target =>
        dsimp only
        split <;> rfl

theorem foldl_step_of_harmless {filename text : Bytes} {lexemes : List Lexeme}
    (harmless : ∀ lexeme ∈ lexemes, lexeme.token = .comment → Harmless text lexeme)
    (state : LineTable × List Lexeme) :
    (lexemes.foldl (step filename text (lineStarts text)) state).2 = lexemes.reverse ++ state.2 := by
  induction lexemes generalizing state with
  | nil => rfl
  | cons lexeme lexemes ih =>
    rcases forall_mem_cons.mp harmless with ⟨first, rest⟩
    rw [foldl_cons, ih rest, step_of_harmless first, reverse_cons,
      append_assoc, singleton_append]

theorem harmless_of_foldl_step {filename text : Bytes} {lexemes : List Lexeme}
    (faultless : ∀ lexeme ∈ (lexemes.foldl (step filename text (lineStarts text)) state).2,
      lexeme.faults = []) :
    ∀ lexeme ∈ lexemes, lexeme.token = .comment → Harmless text lexeme := by
  induction lexemes generalizing state with
  | nil => exact forall_mem_nil _
  | cons lexeme lexemes ih =>
    rw [foldl_cons] at faultless
    have later := ih faultless
    rw [foldl_step_faultless faultless] at faultless
    exact forall_mem_cons.mpr
      ⟨harmless_of_step (forall_mem_append.mp faultless).2, later⟩

end LineDirective

/-- Where no line directive has a fault, the lexemes of a file are those of its text. -/
theorem scanFile_of_harmless {filename text : Bytes}
    (harmless : ∀ lexeme ∈ Lexeme.scan text, lexeme.token = .comment →
      LineDirective.Harmless text lexeme) :
    (scanFile filename text).2 = Lexeme.scan text := by
  have lexemes := @LineDirective.foldl_step_of_harmless filename text _ harmless
    (LineTable.ofText filename text, [])
  rw [append_nil] at lexemes
  exact (congrArg List.reverse lexemes).trans (reverse_reverse _)

theorem harmless_of_scanFile {filename text : Bytes}
    (faultless : ∀ lexeme ∈ (scanFile filename text).2, lexeme.faults = []) :
    ∀ lexeme ∈ Lexeme.scan text, lexeme.token = .comment → LineDirective.Harmless text lexeme :=
  LineDirective.harmless_of_foldl_step fun lexeme member =>
    faultless lexeme (mem_reverse.mpr member)

end Source
end CaseExpansion
