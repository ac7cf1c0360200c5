/-
  ExprText.Proofs.Variables
  ─────────────────────────
  **THE VARIABLES OF A TREE ARE THE NAMES IN ITS TEXT.**

  The variables of a tree are its leaves that are names, from left to right, each
  where it occurs first (`variableNames_eq`).  They are collected with the names
  seen so far as an accumulator, which never holds a name twice.

  The names in a text are found without a grammar.  A text has runs of word
  characters, and a run that does not start with a digit is a name:

      names "x1*(y - 2.5)+x1"   =   x1, y, x1

  A text that is read has no other runs but names and the digits of numbers, and
  its names stand in the order of the leaves (`names_of_read`).  So the two lists
  agree, for every text that a tree is read from (`variableNames_of_read`).
-/
import ExprText.Proofs.Acceptance

namespace ExprText

/-! ## §1. Each name once. -/

namespace Expr

/-- The names at the leaves of the tree, from left to right, as often as they occur. -/
def occurrences : Expr → List String
  | const _ => []
  | var name => [name]
  | neg operand => operand.occurrences
  | bin _ left right => left.occurrences ++ right.occurrences

/-- The list with the name at its end, unless it holds the name already. -/
def addName (seen : List String) (name : String) : List String :=
  if name ∈ seen then seen else seen ++ [name]

theorem nodup_addName {seen : List String} (h : seen.Nodup) (name : String) :
    (addName seen name).Nodup := by
  unfold addName
  by_cases hmem : name ∈ seen
  · rw [if_pos hmem]
    exact h
  · rw [if_neg hmem, List.nodup_append]
    refine ⟨h, by simp, ?_⟩
    intro x hx y hy hxy
    rw [List.mem_singleton.1 hy] at hxy
    rw [hxy] at hx
    exact hmem hx

/-- **No name is collected twice.** -/
theorem nodup_collectVariables {seen : List String} (h : seen.Nodup) (e : Expr) :
    (e.collectVariables seen).Nodup := by
  induction e generalizing seen with
  | const value => exact h
  | var name => exact nodup_addName h name
  | neg operand ih => exact ih h
  | bin op left right ihleft ihright => exact ihright (ihleft h)

/-- Collecting adds the names at the leaves, one after the other. -/
theorem collectVariables_eq_foldl (seen : List String) (e : Expr) :
    e.collectVariables seen = e.occurrences.foldl addName seen := by
  induction e generalizing seen with
  | const value => rfl
  | var name => rfl
  | neg operand ih => exact ih seen
  | bin op left right ihleft ihright =>
    show right.collectVariables (left.collectVariables seen) =
      (left.occurrences ++ right.occurrences).foldl addName seen
    rw [List.foldl_append, ihright, ihleft]

/-- What is added to a list are the names that it does not hold, each where it occurs first. -/
theorem foldl_addName (seen names : List String) :
    names.foldl addName seen = seen ++ (names.filter fun x => decide (x ∉ seen)).eraseDups := by
  induction names generalizing seen with
  | nil => simp
  | cons name names ih =>
    rw [List.foldl_cons, ih]
    unfold addName
    by_cases hmem : name ∈ seen
    · -- the name is known
      rw [if_pos hmem, List.filter_cons_of_neg (by simpa using hmem)]
    · -- the name is new, and known from here on
      have hknown : (fun x => decide (x ∉ seen ++ [name])) =
          fun x => (!x == name) && decide (x ∉ seen) := by
        funext x
        by_cases hx : x = name <;> simp [hx]
      rw [if_neg hmem, List.filter_cons_of_pos (by simpa using hmem), List.eraseDups_cons,
        List.filter_filter, hknown, List.append_assoc, List.singleton_append]

/-- **The variables are the names at the leaves**, each where it occurs first. -/
theorem variableNames_eq (e : Expr) : e.variableNames = e.occurrences.eraseDups := by
  unfold variableNames
  rw [collectVariables_eq_foldl, foldl_addName, List.filter_eq_self.2 (by simp), List.nil_append]

end Expr

namespace Grammar

/-! ## §2. Runs of a class. -/

/-- The runs of the class in the text, each as long as it goes, from left to right. -/
def runs (isMember : Char → Bool) : List Char → List (List Char)
  | [] => []
  | c :: s =>
    if isMember c then (c :: s.takeWhile isMember) :: runs isMember (s.dropWhile isMember)
    else runs isMember s
termination_by s => s.length
decreasing_by
  · exact Nat.lt_succ_of_le (List.dropWhile_suffix _).length_le
  · exact Nat.lt_succ_self s.length

section Runs

variable {isMember : Char → Bool}

@[simp] theorem runs_nil : runs isMember [] = [] := by
  rw [runs]

theorem runs_cons_of_not_mem {c : Char} (hc : isMember c = false) (s : List Char) :
    runs isMember (c :: s) = runs isMember s := by
  rw [runs, if_neg (by simp [hc])]

/-- Characters outside the class are no part of any run. -/
theorem runs_append_of_no_member {w : List Char} (hw : ∀ c ∈ w, isMember c = false)
    (r : List Char) : runs isMember (w ++ r) = runs isMember r := by
  induction w with
  | nil => rfl
  | cons c w ih =>
    obtain ⟨hc, hw⟩ := List.forall_mem_cons.1 hw
    rw [List.cons_append, runs_cons_of_not_mem hc, ih hw]

/-- A run in front of a text that stops it. -/
theorem runs_append_of_members {w r : List Char} (hne : w ≠ [])
    (hw : ∀ c ∈ w, isMember c = true) (hr : Stops isMember r) :
    runs isMember (w ++ r) = w :: runs isMember r := by
  cases w with
  | nil => exact absurd rfl hne
  | cons c w =>
    obtain ⟨hc, hw⟩ := List.forall_mem_cons.1 hw
    obtain ⟨htake, hdrop⟩ := eq_append_iff.1 ⟨rfl, hw, hr⟩
    rw [List.cons_append, runs, if_pos hc, ← htake, ← hdrop]

/-- **Runs do not reach into a text that stops them.** -/
theorem runs_append {r : List Char} (hr : Stops isMember r) (s : List Char) :
    runs isMember (s ++ r) = runs isMember s ++ runs isMember r := by
  fun_induction runs isMember s with
  | case1 => rfl
  | case2 c s hc ih =>
    -- the run of `c` ends in `s`, or at the latest in front of `r`
    have hsplit : c :: s = (c :: s.takeWhile isMember) ++ s.dropWhile isMember := by
      rw [List.cons_append, List.takeWhile_append_dropWhile]
    have hmembers : ∀ d ∈ c :: s.takeWhile isMember, isMember d = true :=
      List.forall_mem_cons.2 ⟨hc, List.all_eq_true.1 List.all_takeWhile⟩
    rw [hsplit, List.append_assoc, runs_append_of_members (List.cons_ne_nil _ _) hmembers
      (Stops.append (stops_dropWhile isMember s) hr), ih, List.cons_append]
  | case3 c s hc ih =>
    rw [List.cons_append, runs_cons_of_not_mem (by simpa using hc), ih]

end Runs

/-! ## §3. Names in a text. -/

/-- A run of word characters is a name if it does not start with a digit. -/
def startsName : List Char → Bool
  | [] => false
  | c :: _ => !c.isDigit

/-- The names in the text, as often as they occur: its runs of word characters, but for those that
start with a digit. -/
def names (s : List Char) : List String :=
  ((runs Text.isWordChar s).filter startsName).map String.ofList

@[simp] theorem names_nil : names [] = [] := by
  unfold names
  rw [runs_nil]
  rfl

theorem names_append {r : List Char} (hr : Stops Text.isWordChar r) (s : List Char) :
    names (s ++ r) = names s ++ names r := by
  unfold names
  rw [runs_append hr, List.filter_append, List.map_append]

theorem names_append_of_no_word {w : List Char} (hw : ∀ c ∈ w, Text.isWordChar c = false)
    (r : List Char) : names (w ++ r) = names r := by
  unfold names
  rw [runs_append_of_no_member hw]

theorem names_cons_of_not_word {c : Char} (hc : Text.isWordChar c = false) (s : List Char) :
    names (c :: s) = names s := by
  unfold names
  rw [runs_cons_of_not_mem hc]

/-- A run of word characters on its own. -/
theorem names_of_word {w : List Char} (hne : w ≠ []) (hw : ∀ c ∈ w, Text.isWordChar c = true) :
    names w = if startsName w then [String.ofList w] else [] := by
  have hruns := runs_append_of_members hne hw (stops_nil _)
  rw [List.append_nil, runs_nil] at hruns
  unfold names
  rw [hruns]
  by_cases h : startsName w = true
  · rw [if_pos h, List.filter_cons_of_pos h]
    rfl
  · rw [if_neg h, List.filter_cons_of_neg h]
    rfl

theorem isDigit_of_isLetter {c : Char} (h : Text.isLetter c = true) : c.isDigit = false := by
  have hopens := opensNumber_of_isLetter h
  simp only [opensNumber, Bool.or_eq_false_iff] at hopens
  exact hopens.1.1.1

theorem names_of_isIdentifier {x : List Char} (hx : Text.IsIdentifier x) :
    names x = [String.ofList x] := by
  rw [names_of_word (ne_nil_of_isIdentifier hx) (isWordChar_of_isIdentifier hx)]
  cases x with
  | nil => exact hx.elim
  | cons c cs => rw [if_pos (by simp [startsName, isDigit_of_isLetter hx.1])]

theorem names_of_digits {w : List Char} (hw : Digits w) : names w = [] := by
  cases w with
  | nil => exact names_nil
  | cons c w =>
    have hc := hw c List.mem_cons_self
    rw [names_of_word (List.cons_ne_nil c w) fun d hd => isWordChar_of_isDigit (hw d hd),
      if_neg (by simp [startsName, hc])]

/-! ## §4. The names in a derived text. -/

/-- The point stands between two runs of digits, so there is no name in a number. -/
theorem names_of_numeral {u : List Char} {d : Decimal} (hu : Numeral u d) : names u = [] := by
  cases hu with
  | integer _ hdigits _ => exact names_of_digits hdigits
  | fraction hinteger hplaces _ _ =>
    rw [names_append (stops_cons.2 (by decide)), names_cons_of_not_word (by decide),
      names_of_digits hinteger, names_of_digits hplaces]
    rfl

/-- An operator has no names, and keeps those around it apart. -/
theorem names_spaced {op : Operator} {o : List Char} (ho : Spaced op o) (u v : List Char) :
    names (u ++ o ++ v) = names u ++ names v := by
  rw [List.append_assoc, names_append (ho.stops_isWordChar v), names_append_of_no_word ho.not_word]

/-- Blanks around a text have no names, and neither has what closes it. -/
theorem names_between_blanks {w u w' r : List Char} (hw : Blanks w) (hw' : Blanks w')
    (hr : Closed 0 r) : names (w ++ (u ++ (w' ++ r))) = names u ++ names r := by
  rw [names_append_of_no_word fun c hc => isWordChar_of_isBlank (hw c hc),
    names_append (closed_append hw' hr).stops_isWordChar,
    names_append_of_no_word fun c hc => isWordChar_of_isBlank (hw' c hc)]

/-- **The names in a derived text are the names at the leaves of its tree**, in the same order. -/
theorem names_of_derives {rule : Rule} {u : List Char} {e : Expr} (h : Derives rule u e) :
    names u = e.occurrences := by
  induction h with
  | name hname => exact names_of_isIdentifier hname
  | number hu => exact names_of_numeral hu
  | plusNumber hu | minusNumber hu =>
    rw [names_cons_of_not_word (by decide)]
    exact names_of_numeral hu
  | variableRef _ ih | literal _ ih | plain _ _ ih | base _ ih | operand _ _ ih
  | expression _ ih => exact ih
  | @parens w u w' e hw _ hw' ih =>
    have hassoc : '(' :: w ++ u ++ w' ++ [')'] = '(' :: (w ++ (u ++ (w' ++ [')']))) := by simp
    have hclose : names [')'] = [] := by
      rw [names_cons_of_not_word (by decide), names_nil]
    rw [hassoc, names_cons_of_not_word (by decide),
      names_between_blanks hw hw' (closed_parenthesis 0 []), hclose, List.append_nil, ih]
  | neg _ ih | plus _ ih =>
    rw [names_cons_of_not_word (by decide)]
    exact ih
  | power _ ho _ ihbase ihexponent =>
    rw [names_spaced ho, ihbase, ihexponent]
    rfl
  | link _ _ _ ho _ ihleft ihright =>
    rw [names_spaced ho, ihleft, ihright]
    rfl

theorem names_of_read {s : String} {e : Expr} (h : read s = .ok e) :
    names s.toList = e.occurrences := by
  obtain ⟨w, u, w', hs, hw, hu, hw'⟩ := read_eq_ok_iff_padded.1 h
  have hnames := names_between_blanks (u := u) hw hw' (closed_nil 0)
  rw [List.append_nil, ← List.append_assoc, ← hs, names_nil, List.append_nil] at hnames
  rw [hnames, names_of_derives hu]

/-! ## §5. The variables. -/

/-- **THE VARIABLES ARE THE NAMES, EACH ONCE AND IN ORDER.**

* The variables of any tree hold no name twice.  They are the names at its leaves, from left to
  right, without all but the first occurrence of each.
* The variables of a tree that is read from a text are the names in the text, in the order of the
  text, without the later repetitions. -/
theorem variableNames_of_read :
    (∀ e : Expr, e.variableNames.Nodup ∧ e.variableNames = e.occurrences.eraseDups) ∧
    (∀ (s : String) (e : Expr), read s = .ok e →
      e.variableNames = (names s.toList).eraseDups) := by
  refine ⟨fun e => ⟨Expr.nodup_collectVariables List.nodup_nil e, e.variableNames_eq⟩, ?_⟩
  intro s e h
  rw [names_of_read h]
  exact e.variableNames_eq

/-- A name that occurs twice, and another one that starts alike. -/
theorem variableNames_of_read_powers :
    read " b1 ** -a*(b + 2.50 - b1)\t< a" =
      .ok (.bin .lt
        (.bin .mul (.bin .pow (.var "b1") (.neg (.var "a")))
          (.bin .sub (.bin .add (.var "b") (.const ⟨false, 250, 2⟩)) (.var "b1")))
        (.var "a")) ∧
    names " b1 ** -a*(b + 2.50 - b1)\t< a".toList = ["b1", "a", "b", "b1", "a"] ∧
    (Expr.bin .lt
      (.bin .mul (.bin .pow (.var "b1") (.neg (.var "a")))
        (.bin .sub (.bin .add (.var "b") (.const ⟨false, 250, 2⟩)) (.var "b1")))
      (.var "a")).variableNames = ["b1", "a", "b"] := by
  have hread : read " b1 ** -a*(b + 2.50 - b1)\t< a" =
      .ok (.bin .lt
        (.bin .mul (.bin .pow (.var "b1") (.neg (.var "a")))
          (.bin .sub (.bin .add (.var "b") (.const ⟨false, 250, 2⟩)) (.var "b1")))
        (.var "a")) :=
    read_eq_ok_iff.2 (by decide +kernel)
  have hnames : names " b1 ** -a*(b + 2.50 - b1)\t< a".toList = ["b1", "a", "b", "b1", "a"] := by
    decide +kernel
  have hvariables := variableNames_of_read.2 _ _ hread
  rw [hnames] at hvariables
  exact ⟨hread, hnames, hvariables⟩

end Grammar

end ExprText
