/-
  ExprText.Proofs.Translation
  ───────────────────────────
  **TEXTS THAT ARE WRITTEN ANEW, PIECE BY PIECE.**

  Let every name of a text be replaced by some primary text, and every blank by
  some blanks, while all other characters stay.  The grammar derives the new text
  from the same rule, and the trees of the primary texts have taken the places
  of the variables (`Translation.derives`).  Nothing that is put in leaks into
  what stands around it.

  Two translations have a meaning of their own.

      the blanks go, the names stay      the tree stays             (`read_withoutBlanks`)
      one name becomes a text in         its tree takes the place
      parentheses, the blanks stay       of the variable            (`read_replaceName`)
-/
import ExprText.Proofs.Acceptance
import ExprText.Proofs.Pieces

namespace ExprText

/-! ## §1. Trees in the places of variables. -/

namespace Expr

/-- The tree with another tree in the place of every variable. -/
def subst (trees : String → Expr) : Expr → Expr
  | const value => const value
  | var name => trees name
  | neg operand => neg (operand.subst trees)
  | bin op left right => bin op (left.subst trees) (right.subst trees)

/-- A variable in its own place changes nothing. -/
theorem subst_var (e : Expr) : e.subst var = e := by
  induction e with
  | const value => rfl
  | var name => rfl
  | neg operand ih =>
    show neg (operand.subst var) = neg operand
    rw [ih]
  | bin op left right ihleft ihright =>
    show bin op (left.subst var) (right.subst var) = bin op left right
    rw [ihleft, ihright]

/-- The tree with another tree in the place of every variable `x`. -/
def replaceVar (e : Expr) (x : String) (new : Expr) : Expr :=
  e.subst fun y => if y = x then new else var y

end Expr

namespace Grammar

/-! ## §2. Characters outside the names. -/

theorem isLetter_of_opensNumber {c : Char} (h : opensNumber c = true) :
    Text.isLetter c = false := by
  apply Bool.eq_false_iff.2
  intro hletter
  rw [opensNumber_of_isLetter hletter] at h
  cases h

theorem isLetter_of_isBlank {c : Char} (h : Text.isBlank c = true) : Text.isLetter c = false :=
  isLetter_of_not_word (isWordChar_of_isBlank h)

theorem opensNumber_of_numeral {u : List Char} {d : Decimal} (h : Numeral u d) :
    ∀ c ∈ u, opensNumber c = true := by
  intro c hc
  rcases h.of_mem hc with hc | hc <;> simp [opensNumber, hc]

theorem isBlank_of_opensNumber {c : Char} (h : opensNumber c = true) :
    Text.isBlank c = false := by
  have hopens : opensOperand c = true := by
    simp only [opensNumber, Bool.or_eq_true, beq_iff_eq] at h
    rcases h with ((hdigit | hc) | hc) | hc
    · simp [opensOperand, isWordChar_of_isDigit hdigit]
    all_goals simp [opensOperand, hc]
  exact (opensOperand_spec hopens).1

/-- A name is found whole in the text without its blanks. -/
theorem filter_of_isIdentifier {x : List Char} (hx : Text.IsIdentifier x) :
    (x.filter fun c => !Text.isBlank c) = x := by
  apply List.filter_eq_self.2
  intro c hc
  rw [isBlank_of_isWordChar (isWordChar_of_isIdentifier hx c hc)]
  rfl

theorem head_ne_of_isIdentifier {x : List Char} (hx : Text.IsIdentifier x) {c : Char}
    (hc : Text.isLetter c = false) : x.head? ≠ some c := by
  intro hhead
  obtain ⟨y, hy⟩ := List.head?_eq_some_iff.1 hhead
  rw [hy] at hx
  rw [hx.1] at hc
  cases hc

/-! ## §3. Translations. -/

/-- A way of writing pieces anew: blanks become blanks, other characters outside the names stay, and
a name becomes a primary text of the tree in its place, with no minus sign at its front. -/
structure Translation (each : Piece → List Char) (trees : String → Expr) : Prop where
  blank : ∀ c, Text.isBlank c = true → Blanks (each (.other c))
  other : ∀ c, Text.isBlank c = false → each (.other c) = [c]
  name : ∀ x, Text.IsIdentifier x → Derives .primary (each (.name x)) (trees (String.ofList x))
  head : ∀ x, Text.IsIdentifier x → (each (.name x)).head? ≠ some '-'

/-- The rule of a text that is written anew: a name alone may have become any primary text. -/
def Rule.translated : Rule → Rule
  | .variableRef => .primary
  | rule => rule

theorem Level.translated_eq {rule operand : Rule} {ops : List Operator}
    (level : Level rule ops operand) : rule.translated = rule ∧ operand.translated = operand := by
  cases level <;> exact ⟨rfl, rfl⟩

namespace Translation

variable {each : Piece → List Char} {trees : String → Expr}

theorem blanks (h : Translation each trees) {w : List Char} (hw : Blanks w) :
    Blanks (w.flatMap fun c => each (.other c)) := by
  intro d hd
  obtain ⟨c, hc, hd⟩ := List.mem_flatMap.1 hd
  exact h.blank c (hw c hc) d hd

theorem others (h : Translation each trees) {w : List Char}
    (hw : ∀ c ∈ w, Text.isBlank c = false) : (w.flatMap fun c => each (.other c)) = w := by
  induction w with
  | nil => rfl
  | cons c w ih =>
    obtain ⟨hc, hw⟩ := List.forall_mem_cons.1 hw
    rw [List.flatMap_cons, h.other c hc, ih hw]
    rfl

theorem spaced (h : Translation each trees) {op : Operator} {o : List Char} (ho : Spaced op o) :
    Spaced op (o.flatMap fun c => each (.other c)) := by
  obtain ⟨hw, hw'⟩ := ho
  rw [List.flatMap_append, List.flatMap_append, h.others fun c hc => (symbol_spec op c hc).2]
  exact .intro (h.blanks hw) (h.blanks hw')

/-- Up to the operator a text is written anew on its own, and so is the operator. -/
theorem translate_spaced {op : Operator} {o : List Char} (ho : Spaced op o) (u v : List Char) :
    translate each (u ++ o ++ v) =
      translate each u ++ (o.flatMap fun c => each (.other c)) ++ translate each v := by
  rw [List.append_assoc, translate_append (ho.stops_isWordChar v),
    translate_append_of_no_letter fun c hc => isLetter_of_not_word (ho.not_word c hc),
    List.append_assoc]

theorem translate_parens {w u w' : List Char} (h : Translation each trees) (hw : Blanks w)
    (hw' : Blanks w') :
    translate each ('(' :: w ++ u ++ w' ++ [')']) =
      '(' :: (w.flatMap fun c => each (.other c)) ++ translate each u ++
        (w'.flatMap fun c => each (.other c)) ++ [')'] := by
  have hclosed : Closed 0 (w' ++ [')']) := closed_append hw' (closed_parenthesis 0 [])
  have hclose : translate each [')'] = [')'] := by
    rw [translate_cons (by decide), h.other _ (by decide), translate_nil, List.append_nil]
  have hassoc : '(' :: w ++ u ++ w' ++ [')'] = '(' :: (w ++ (u ++ (w' ++ [')']))) := by simp
  rw [hassoc, translate_cons (by decide), h.other _ (by decide),
    translate_append_of_no_letter fun c hc => isLetter_of_isBlank (hw c hc),
    translate_append hclosed.stops_isWordChar,
    translate_append_of_no_letter fun c hc => isLetter_of_isBlank (hw' c hc), hclose]
  simp

theorem translate_numeral (h : Translation each trees) {u : List Char} {d : Decimal}
    (hu : Numeral u d) : translate each u = u := by
  have hopens := opensNumber_of_numeral hu
  rw [translate_of_no_letter fun c hc => isLetter_of_opensNumber (hopens c hc),
    h.others fun c hc => isBlank_of_opensNumber (hopens c hc)]

/-- A sign stays. -/
theorem translate_sign (h : Translation each trees) {c : Char} (hc : opensNumber c = true)
    (u : List Char) : translate each (c :: u) = c :: translate each u := by
  rw [translate_cons (isLetter_of_opensNumber hc), h.other c (isBlank_of_opensNumber hc)]
  rfl

/-- No minus sign comes to the front of an operand. -/
theorem head_translate (h : Translation each trees) {rule : Rule} {u : List Char} {e : Expr}
    (hu : Derives rule u e) (hminus : u.head? ≠ some '-') :
    (translate each u).head? ≠ some '-' := by
  obtain ⟨c, v, hv, hc⟩ := hu.opens
  subst hv
  cases hletter : Text.isLetter c with
  | true =>
    -- the text starts with a name, and something is put in its place
    have hname := isIdentifier_takeWhile hletter v
    have hhead := h.head _ hname
    obtain ⟨d, x, hx⟩ := List.exists_cons_of_ne_nil (h.name _ hname).ne_nil
    unfold translate
    rw [pieces_cons_of_letter hletter, List.flatMap_cons]
    rw [hx] at hhead ⊢
    exact hhead
  | false =>
    rw [translate_cons hletter, h.other c (opensOperand_spec hc).1]
    exact hminus

/-! ## §4. What is written anew is derived. -/

/-- **A TEXT THAT IS WRITTEN ANEW IS DERIVED**, with the trees of the new primary texts in the
places of the variables. -/
theorem derives (h : Translation each trees) {rule : Rule} {u : List Char} {e : Expr}
    (hu : Derives rule u e) : Derives rule.translated (translate each u) (e.subst trees) := by
  induction hu with
  | name hname =>
    rw [translate_of_isIdentifier hname]
    exact h.name _ hname
  | number hu =>
    rw [h.translate_numeral hu]
    exact .number hu
  | plusNumber hu =>
    rw [h.translate_sign (by decide), h.translate_numeral hu]
    exact .plusNumber hu
  | minusNumber hu =>
    rw [h.translate_sign (by decide), h.translate_numeral hu]
    exact .minusNumber hu
  | variableRef _ ih =>
    -- what was put in the place of the name is a primary text already
    exact ih
  | literal _ ih => exact .literal ih
  | parens hw _ hw' ih =>
    rw [h.translate_parens hw hw']
    exact .parens (h.blanks hw) ih (h.blanks hw')
  | neg _ ih =>
    rw [h.translate_sign (by decide)]
    exact .neg ih
  | plus _ ih =>
    rw [h.translate_sign (by decide)]
    exact .plus ih
  | plain hu hminus ih => exact .plain ih (h.head_translate hu hminus)
  | base _ ih => exact .base ih
  | power _ ho _ ihbase ihexponent =>
    rw [translate_spaced ho]
    exact .power ihbase (h.spaced ho) ihexponent
  | operand level _ ih =>
    -- no level is a name, so its rules are the same as before
    rw [level.translated_eq.2] at ih
    rw [level.translated_eq.1]
    exact .operand level ih
  | link level hop _ ho hv ihleft ihright =>
    rw [level.translated_eq.1] at ihleft ⊢
    rw [level.translated_eq.2] at ihright
    rw [translate_spaced ho]
    exact .link level hop ihleft (h.spaced ho) ihright
  | expression _ ih => exact .expression ih

/-- A text that is read is read when it is written anew. -/
theorem read_translate (h : Translation each trees) {s : String} {e : Expr}
    (hs : read s = .ok e) :
    read (String.ofList (translate each s.toList)) = .ok (e.subst trees) := by
  rw [read_eq_ok_iff_padded] at hs ⊢
  obtain ⟨w, u, w', hs, hw, hu, hw'⟩ := hs
  have hclosed : Closed 0 w' := closed_blanks hw'
  refine ⟨_, _, _, ?_, h.blanks hw, h.derives hu, h.blanks hw'⟩
  rw [String.toList_ofList, hs, List.append_assoc,
    translate_append_of_no_letter fun c hc => isLetter_of_isBlank (hw c hc),
    translate_append hclosed.stops_isWordChar,
    translate_of_no_letter fun c hc => isLetter_of_isBlank (hw' c hc), List.append_assoc]

end Translation

/-! ## §5. Texts without blanks. -/

/-- The text without its blanks. -/
def withoutBlanks (s : String) : String :=
  String.ofList (s.toList.filter fun c => !Text.isBlank c)

/-- No piece but a blank has blanks in it, and no blank at all is a run of blanks too. -/
theorem translation_withoutBlanks :
    Translation (fun piece => piece.text.filter fun c => !Text.isBlank c) Expr.var where
  blank c hc := by
    intro d hd
    simp [Piece.text, hc] at hd
  other c hc := by simp [Piece.text, hc]
  name x hx := by
    show Derives .primary (x.filter fun c => !Text.isBlank c) (.var (String.ofList x))
    rw [filter_of_isIdentifier hx]
    exact .variableRef (.name hx)
  head x hx := by
    show (x.filter fun c => !Text.isBlank c).head? ≠ some '-'
    rw [filter_of_isIdentifier hx]
    exact head_ne_of_isIdentifier hx (by decide)

theorem read_withoutBlanks_of_read {s : String} {e : Expr} (h : read s = .ok e) :
    read (withoutBlanks s) = .ok e := by
  have hread := translation_withoutBlanks.read_translate h
  unfold translate at hread
  rw [← List.filter_flatMap, text_pieces, Expr.subst_var] at hread
  exact hread

/-- **BLANKS CARRY NO MEANING.**  A text that is read is read without its blanks, as the same tree;
so two texts that are read, and differ in their blanks only, have one tree. -/
theorem read_withoutBlanks :
    (∀ (s : String) (e : Expr), read s = .ok e → read (withoutBlanks s) = .ok e) ∧
    (∀ (s s' : String) (e e' : Expr), withoutBlanks s = withoutBlanks s' →
      read s = .ok e → read s' = .ok e' → e = e') := by
  refine ⟨fun s e h => read_withoutBlanks_of_read h, fun s s' e e' hsame h h' => ?_⟩
  have hread := read_withoutBlanks_of_read h
  rw [hsame, read_withoutBlanks_of_read h', Except.ok.injEq] at hread
  exact hread.symm

/-- Two minus signs, a power and parentheses, with blanks of ASCII and of the ideographic kind. -/
theorem read_withoutBlanks_signs :
    read "a--b**(2)" =
      .ok (.bin .sub (.var "a") (.bin .pow (.neg (.var "b")) (.const ⟨false, 2, 0⟩))) ∧
    read " a - -b\u3000** ( 2 ) " = read "a -\t-b**(2)" := by
  have h : read " a - -b\u3000** ( 2 ) " =
      .ok (.bin .sub (.var "a") (.bin .pow (.neg (.var "b")) (.const ⟨false, 2, 0⟩))) :=
    read_eq_ok_iff.2 (by decide +kernel)
  have h' : read "a -\t-b**(2)" =
      .ok (.bin .sub (.var "a") (.bin .pow (.neg (.var "b")) (.const ⟨false, 2, 0⟩))) :=
    read_eq_ok_iff.2 (by decide +kernel)
  have htext : withoutBlanks " a - -b\u3000** ( 2 ) " = "a--b**(2)" := by decide +kernel
  have htext' : withoutBlanks "a -\t-b**(2)" = "a--b**(2)" := by decide +kernel
  have hread := read_withoutBlanks.1 _ _ h
  have htree := read_withoutBlanks.2 _ _ _ _ (htext.trans htext'.symm) h h'
  rw [htext] at hread
  exact ⟨hread, h.trans ((congrArg Except.ok htree).trans h'.symm)⟩

/-! ## §6. Names that become texts in parentheses. -/

/-- The piece, but for the name `x`, which becomes the text `new`. -/
def putFor (x : String) (new : List Char) : Piece → List Char
  | .name y => if String.ofList y = x then new else y
  | .other c => [c]

/-- The text with `new` in the place of every name `x`, that is of every run of word characters from
the first letter on that spells `x` and cannot be made longer. -/
def replaceName (x new s : String) : String :=
  String.ofList (translate (putFor x new.toList) s.toList)

/-- Parentheses make a primary text of every text that is read. -/
theorem derives_parens_of_read {s : String} {e : Expr} (h : read s = .ok e) :
    Derives .primary ('(' :: s.toList ++ [')']) e := by
  obtain ⟨w, u, w', hs, hw, hu, hw'⟩ := read_eq_ok_iff_padded.1 h
  rw [hs]
  have hparens := Derives.parens hw hu hw'
  simpa using hparens

theorem translation_putFor {s : String} {e : Expr} (h : read s = .ok e) (x : String) :
    Translation (putFor x ('(' :: s.toList ++ [')'])) fun y => if y = x then e else .var y where
  blank c hc := by
    intro d hd
    rw [List.mem_singleton.1 hd]
    exact hc
  other _ _ := rfl
  name y hy := by
    show Derives .primary (if String.ofList y = x then '(' :: s.toList ++ [')'] else y)
      (if String.ofList y = x then e else .var (String.ofList y))
    by_cases hx : String.ofList y = x
    · rw [if_pos hx, if_pos hx]
      exact derives_parens_of_read h
    · rw [if_neg hx, if_neg hx]
      exact .variableRef (.name hy)
  head y hy := by
    show (if String.ofList y = x then '(' :: s.toList ++ [')'] else y).head? ≠ some '-'
    by_cases hx : String.ofList y = x
    · rw [if_pos hx]
      simp
    · rw [if_neg hx]
      exact head_ne_of_isIdentifier hy (by decide)

/-- **A TEXT IN PARENTHESES FOR A NAME IS A TREE FOR A VARIABLE.**  Where both texts are read, so is
the one with the other, in parentheses, in the place of every name `x`; and its tree is the tree of
the one with the tree of the other in the place of the variable `x`. -/
theorem read_replaceName {x s c : String} {e tree : Expr} (hs : read s = .ok e)
    (hc : read c = .ok tree) :
    read (replaceName x ("(" ++ s ++ ")") c) = .ok (tree.replaceVar x e) := by
  have hread := (translation_putFor hs x).read_translate hc
  have hnew : ("(" ++ s ++ ")").toList = '(' :: s.toList ++ [')'] := by
    rw [String.toList_append, String.toList_append]
    rfl
  unfold replaceName
  rw [hnew]
  exact hread

/-- The name is a base, the operand of a sign and a part of a longer name; the text that is put in
has a looser operator and blanks at its ends. -/
theorem read_replaceName_powers :
    read "  b < -1 " = .ok (.bin .lt (.var "b") (.neg (.const ⟨false, 1, 0⟩))) ∧
    read "a ** -a * ab" = .ok (.bin .mul (.bin .pow (.var "a") (.neg (.var "a"))) (.var "ab")) ∧
    read "(  b < -1 ) ** -(  b < -1 ) * ab" =
      .ok (.bin .mul
        (.bin .pow (.bin .lt (.var "b") (.neg (.const ⟨false, 1, 0⟩)))
          (.neg (.bin .lt (.var "b") (.neg (.const ⟨false, 1, 0⟩)))))
        (.var "ab")) := by
  have hs : read "  b < -1 " = .ok (.bin .lt (.var "b") (.neg (.const ⟨false, 1, 0⟩))) :=
    read_eq_ok_iff.2 (by decide +kernel)
  have hc : read "a ** -a * ab" =
      .ok (.bin .mul (.bin .pow (.var "a") (.neg (.var "a"))) (.var "ab")) :=
    read_eq_ok_iff.2 (by decide +kernel)
  have htext : replaceName "a" ("(" ++ "  b < -1 " ++ ")") "a ** -a * ab" =
      "(  b < -1 ) ** -(  b < -1 ) * ab" := by decide +kernel
  have hread := read_replaceName (x := "a") hs hc
  rw [htext] at hread
  exact ⟨hs, hc, hread⟩

end Grammar

end ExprText
