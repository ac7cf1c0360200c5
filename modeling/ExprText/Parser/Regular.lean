/-
  ExprText.Parser.Regular
  ───────────────────────
  **PARSERS THAT READ FROM THE FRONT.**

  A `Parser` is any function from texts to replies.  The ones of interest read a
  piece at the front and leave the remainder as it is:

      Regular p     the rest of every reply is a suffix of the text
      Consuming p   a success leaves less than the whole text

  Every combinator keeps `Regular`, one lemma each.  A sequence is `Consuming`
  as soon as one of its parts is.
-/
import ExprText.Parser.Repeat

namespace ExprText.Parser

variable {α β γ : Type}

/-- The rest of every reply is a suffix of the text. -/
def Regular (p : Parser α) : Prop :=
  ∀ s, (p.run s).rest <:+ s

/-- Every success reads something. -/
def Consuming (p : Parser α) : Prop :=
  ∀ s a t, p.run s = .ok a t → t.length < s.length

/-! ## §1. Regular parsers. -/

theorem Regular.suffix {p : Parser α} (h : Regular p) {s t : List Char} {a : α}
    (hp : p.run s = .ok a t) : t <:+ s := by
  have hs := h s
  rw [hp] at hs
  exact hs

theorem Regular.length_le {p : Parser α} (h : Regular p) {s t : List Char} {a : α}
    (hp : p.run s = .ok a t) : t.length ≤ s.length :=
  (h.suffix hp).length_le

theorem regular_pure (a : α) : Regular (Parser.pure a) :=
  fun s => List.suffix_refl s

theorem regular_failure : Regular (Parser.failure : Parser α) :=
  fun s => List.suffix_refl s

theorem regular_satisfy (isMember : Char → Bool) : Regular (satisfy isMember) := by
  intro s
  cases h : (satisfy isMember).run s with
  | ok c t =>
    rw [(satisfy_eq_ok_iff.1 h).1]
    exact List.suffix_cons c t
  | fail t =>
    rw [satisfy_fail h]
    exact List.suffix_refl s

theorem regular_char (c : Char) : Regular (char c) :=
  regular_satisfy _

theorem regular_text (expected : String) : Regular (text expected) := by
  intro s
  cases h : (text expected).run s with
  | ok value t =>
    rw [(text_eq_ok_iff.1 h).1]
    exact List.suffix_append _ t
  | fail t =>
    rw [text_fail h]
    exact List.suffix_refl s

theorem Regular.map {p : Parser α} (h : Regular p) (f : α → β) : Regular (p.map f) := by
  intro s
  rw [run_map, Reply.rest_map]
  exact h s

theorem Regular.filterMap {p : Parser α} (h : Regular p) (f : α → Option β) :
    Regular (p.filterMap f) := by
  intro s
  have hs := h s
  unfold Parser.filterMap
  cases hp : p.run s with
  | fail t => rw [hp] at hs; simp only [hp]; exact hs
  | ok a t =>
    rw [hp] at hs
    cases hf : f a with
    | none => simp only [hp, hf]; exact List.suffix_refl s
    | some b => simp only [hp, hf]; exact hs

/-- A sequence is regular, since its parts are and a failure gives back the whole text. -/
theorem Regular.bindWith {p : Parser α} (h : Regular p) {next : α → Parser β}
    (hnext : ∀ a, Regular (next a)) (combine : α → β → γ) :
    Regular (p.bindWith next combine) := by
  intro s
  cases hs : (p.bindWith next combine).run s with
  | fail t =>
    rw [bindWith_fail hs]
    exact List.suffix_refl s
  | ok c u =>
    obtain ⟨a, t, b, hp, hb, _⟩ := bindWith_eq_ok_iff.1 hs
    exact ((hnext a).suffix hb).trans (h.suffix hp)

theorem Regular.seq {p : Parser α} {q : Parser β} (hp : Regular p) (hq : Regular q) :
    Regular (p.seq q) :=
  hp.bindWith (fun _ => hq) _

theorem Regular.seqLeft {p : Parser α} {q : Parser β} (hp : Regular p) (hq : Regular q) :
    Regular (p.seqLeft q) :=
  hp.bindWith (fun _ => hq) _

theorem Regular.seqRight {p : Parser α} {q : Parser β} (hp : Regular p) (hq : Regular q) :
    Regular (p.seqRight q) :=
  hp.bindWith (fun _ => hq) _

theorem Regular.orElse {p q : Parser α} (hp : Regular p) (hq : Regular q) :
    Regular (p.orElse q) := by
  intro s
  cases h : p.run s with
  | ok a t =>
    rw [run_orElse_of_ok h]
    exact hp.suffix h
  | fail t =>
    rw [run_orElse_of_fail h]
    exact hq s

theorem Regular.optional {p : Parser α} (hp : Regular p) : Regular p.optional := by
  intro s
  cases h : p.run s with
  | ok a t =>
    rw [run_optional_of_ok h]
    exact hp.suffix h
  | fail t =>
    rw [run_optional_of_fail h]
    exact List.suffix_refl s

theorem regular_choice {alternatives : List (Parser α)} (h : ∀ p ∈ alternatives, Regular p) :
    Regular (choice alternatives) := by
  induction alternatives with
  | nil => exact regular_failure
  | cons p ps ih =>
    have hps : Regular (choice ps) := ih fun q hq => h q (List.mem_cons_of_mem p hq)
    exact (h p List.mem_cons_self).orElse hps

theorem repeated_suffix {p : Parser α} (h : Regular p) (s : List Char) :
    (p.repeated s).2 <:+ s := by
  induction hn : s.length using Nat.strongRecOn generalizing s with
  | ind n ih =>
    cases hp : p.run s with
    | fail t =>
      have hrest : (p.repeated s).2 = s := by rw [repeated_of_fail hp]
      exact ⟨[], hrest⟩
    | ok a t =>
      by_cases hlen : t.length < s.length
      · -- one value more, and the rest of the repetition
        rw [repeated_of_progress hp hlen]
        exact (ih t.length (by omega) t rfl).trans (h.suffix hp)
      · have hrest : (p.repeated s).2 = s := by rw [repeated_of_stuck hp (by omega)]
        exact ⟨[], hrest⟩

theorem Regular.many {p : Parser α} (h : Regular p) : Regular p.many := by
  intro s
  rw [run_many]
  exact repeated_suffix h s

theorem Regular.many1 {p : Parser α} (h : Regular p) : Regular p.many1 :=
  h.bindWith (fun _ => h.many) _

/-! ## §2. Consuming parsers. -/

theorem consuming_satisfy (isMember : Char → Bool) : Consuming (satisfy isMember) := by
  intro s c t h
  rw [(satisfy_eq_ok_iff.1 h).1]
  simp

theorem consuming_char (c : Char) : Consuming (char c) :=
  consuming_satisfy _

theorem consuming_text {expected : String} (hne : expected.toList ≠ []) :
    Consuming (text expected) := by
  intro s value t h
  have hpos := List.length_pos_iff.2 hne
  rw [(text_eq_ok_iff.1 h).1, List.length_append]
  omega

theorem Consuming.map {p : Parser α} (h : Consuming p) (f : α → β) : Consuming (p.map f) := by
  intro s b t hb
  obtain ⟨a, ha, _⟩ := map_eq_ok_iff.1 hb
  exact h s a t ha

theorem Consuming.bindWith {p : Parser α} (h : Consuming p) {next : α → Parser β}
    (hnext : ∀ a, Regular (next a)) (combine : α → β → γ) :
    Consuming (p.bindWith next combine) := by
  intro s c u hc
  obtain ⟨a, t, b, hp, hb, _⟩ := bindWith_eq_ok_iff.1 hc
  have h1 := h s a t hp
  have h2 := (hnext a).length_le hb
  omega

theorem Regular.bindWith_consuming {p : Parser α} (h : Regular p) {next : α → Parser β}
    (hnext : ∀ a, Consuming (next a)) (combine : α → β → γ) :
    Consuming (p.bindWith next combine) := by
  intro s c u hc
  obtain ⟨a, t, b, hp, hb, _⟩ := bindWith_eq_ok_iff.1 hc
  have h1 := h.length_le hp
  have h2 := hnext a t b u hb
  omega

theorem consuming_choice {alternatives : List (Parser α)}
    (h : ∀ p ∈ alternatives, Consuming p) : Consuming (choice alternatives) := by
  intro s a t hrun
  obtain ⟨p, hp, hread⟩ := exists_of_choice hrun
  exact h p hp s a t hread

end ExprText.Parser
