/-
  ExprText.Parser.Recursion
  ─────────────────────────
  **RECURSIVE PARSERS.**

  A rule of a grammar may refer to itself.  `fix body` is the parser that runs
  `body` with itself in the place of the reference:

      fix body = body (fix body)                        (`fix_eq`)

  To be total, `fix` lets the reference answer only on texts that are shorter
  than the one the rule was started on.  A body that never asks for more is
  `Guarded`: replies that agree on all texts below some length make the body
  agree on texts that are one character longer.  For a guarded body the equation
  above holds, and `fix body` is its only regular solution (`eq_fix`).
-/
import ExprText.Parser.Regular

namespace ExprText.Parser

variable {α β γ : Type}

/-- The parser on texts of fewer than `n` characters; on all others it fails. -/
def below (n : Nat) (p : Parser α) : Parser α where
  run t := if t.length < n then p.run t else .fail t

/-- The reply of the recursive parser with the given body. -/
def recurse (body : Parser α → Parser α) (s : List Char) : Reply α :=
  (body { run := fun t => if _h : t.length < s.length then recurse body t else .fail t }).run s
termination_by s.length

/-- The parser that stands for itself in `body`. -/
def fix (body : Parser α → Parser α) : Parser α where
  run := recurse body

/-! ## §1. Agreement on short texts. -/

/-- The two parsers reply alike to every text of fewer than `n` characters. -/
def AgreeBelow (n : Nat) (p q : Parser α) : Prop :=
  ∀ t, t.length < n → p.run t = q.run t

theorem AgreeBelow.refl (n : Nat) (p : Parser α) : AgreeBelow n p p :=
  fun _ _ => rfl

theorem AgreeBelow.trans {n : Nat} {p q r : Parser α} (hpq : AgreeBelow n p q)
    (hqr : AgreeBelow n q r) : AgreeBelow n p r :=
  fun t ht => (hpq t ht).trans (hqr t ht)

theorem AgreeBelow.mono {m n : Nat} {p q : Parser α} (h : AgreeBelow n p q) (hmn : m ≤ n) :
    AgreeBelow m p q :=
  fun t ht => h t (by omega)

theorem AgreeBelow.map {n : Nat} {p q : Parser α} (h : AgreeBelow n p q) (f : α → β) :
    AgreeBelow n (p.map f) (q.map f) := by
  intro t ht
  rw [run_map, run_map, h t ht]

theorem AgreeBelow.orElse {n : Nat} {p p' q q' : Parser α} (hp : AgreeBelow n p p')
    (hq : AgreeBelow n q q') : AgreeBelow n (p.orElse q) (p'.orElse q') := by
  intro t ht
  unfold Parser.orElse
  simp only [hp t ht, hq t ht]

theorem AgreeBelow.optional {n : Nat} {p q : Parser α} (h : AgreeBelow n p q) :
    AgreeBelow n p.optional q.optional := by
  intro t ht
  unfold Parser.optional
  simp only [h t ht]

/-- Sequences agree where their parts do: a regular first part hands on no longer text. -/
theorem AgreeBelow.bindWith {n : Nat} {p p' : Parser α} (hp : AgreeBelow n p p')
    (hreg : Regular p) {next next' : α → Parser β} (hnext : ∀ a, AgreeBelow n (next a) (next' a))
    (combine : α → β → γ) :
    AgreeBelow n (p.bindWith next combine) (p'.bindWith next' combine) := by
  intro s hs
  unfold Parser.bindWith
  simp only [← hp s hs]
  cases h : p.run s with
  | fail t => rfl
  | ok a t =>
    have hle := hreg.length_le h
    simp only [hnext a t (by omega)]

/-- Behind a consuming first part, the sequence agrees on texts that are one character longer. -/
theorem AgreeBelow.bindWith_of_consuming {n : Nat} {p : Parser α} (hcons : Consuming p)
    {next next' : α → Parser β} (hnext : ∀ a, AgreeBelow n (next a) (next' a))
    (combine : α → β → γ) :
    AgreeBelow (n + 1) (p.bindWith next combine) (p.bindWith next' combine) := by
  intro s hs
  unfold Parser.bindWith
  cases h : p.run s with
  | fail t => simp only [h]
  | ok a t =>
    have hlt := hcons s a t h
    simp only [h, hnext a t (by omega)]

theorem agreeBelow_below {n : Nat} {p : Parser α} : AgreeBelow n (p.below n) p := by
  intro t ht
  show (if t.length < n then p.run t else .fail t) = _
  rw [if_pos ht]

theorem Regular.below {p : Parser α} {n : Nat} (h : ∀ t, t.length < n → (p.run t).rest <:+ t) :
    Regular (p.below n) := by
  intro t
  by_cases ht : t.length < n
  · rw [agreeBelow_below t ht]
    exact h t ht
  · show (if t.length < n then p.run t else .fail t).rest <:+ t
    rw [if_neg ht]
    exact List.suffix_refl t

/-! ## §2. Guarded bodies. -/

/-- The body keeps regularity, and its replies depend only on what the reference replies to
shorter texts. -/
structure Guarded (body : Parser α → Parser α) : Prop where
  /-- A regular reference makes the body regular. -/
  regular : ∀ p, Regular p → Regular (body p)
  /-- Agreement of the references carries over to texts one character longer. -/
  agree : ∀ p q n, Regular p → Regular q → AgreeBelow n p q → AgreeBelow (n + 1) (body p) (body q)

theorem run_fix (body : Parser α → Parser α) (s : List Char) :
    (fix body).run s = (body ((fix body).below s.length)).run s := by
  show recurse body s = _
  rw [recurse]
  rfl

/-- A recursive parser with a guarded body is regular. -/
theorem Guarded.regular_fix {body : Parser α → Parser α} (h : Guarded body) :
    Regular (fix body) := by
  intro s
  induction hn : s.length using Nat.strongRecOn generalizing s with
  | ind n ih =>
    rw [run_fix]
    -- the reference is asked about shorter texts only, where it is regular already
    have hbelow : Regular ((fix body).below s.length) :=
      Regular.below fun t ht => ih t.length (by omega) t rfl
    exact h.regular _ hbelow s

/-- A recursive parser with a guarded body satisfies its defining equation. -/
theorem fix_eq {body : Parser α → Parser α} (h : Guarded body) : fix body = body (fix body) := by
  ext s
  rw [run_fix]
  have hbelow : Regular ((fix body).below s.length) :=
    Regular.below fun t _ => h.regular_fix t
  exact h.agree _ _ s.length hbelow h.regular_fix agreeBelow_below s (by omega)

/-- Recursive parsers agree where their bodies do. -/
theorem AgreeBelow.fix {body body' : Parser α → Parser α} {n : Nat} (h : Guarded body)
    (h' : Guarded body')
    (hagree : ∀ p q m, m < n → Regular p → Regular q → AgreeBelow m p q →
      AgreeBelow (m + 1) (body p) (body' q)) :
    AgreeBelow n (fix body) (fix body') := by
  induction n with
  | zero =>
    intro t ht
    omega
  | succ n ih =>
    have hn : AgreeBelow n (Parser.fix body) (Parser.fix body') :=
      ih fun p q m hm => hagree p q m (by omega)
    rw [fix_eq h, fix_eq h']
    exact hagree _ _ n (by omega) h.regular_fix h'.regular_fix hn

/-- The defining equation has no other regular solution. -/
theorem eq_fix {body : Parser α → Parser α} (h : Guarded body) {p : Parser α} (hreg : Regular p)
    (hp : p = body p) : p = fix body := by
  have hagree : ∀ n, AgreeBelow n p (fix body) := by
    intro n
    induction n with
    | zero =>
      intro t ht
      omega
    | succ n ih =>
      rw [hp, fix_eq h]
      exact h.agree _ _ n hreg h.regular_fix ih
  ext s
  exact hagree (s.length + 1) s (by omega)

end ExprText.Parser
