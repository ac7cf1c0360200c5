/-
  ExprText.Parser.Basic
  ─────────────────────
  **PARSERS AND THEIR REPLIES.**

  A parser is a function from a text to a reply.  A reply is a success, with a
  value, or a failure; both carry the rest of the text.

      s ──▶ ok value rest      the parser read the text in front of `rest`
      s ──▶ fail rest          the parser read nothing; `rest` is reported

  Sequencing is all or nothing: where one part fails, the sequence fails and
  gives back the whole text that it was started on.  Choice starts its second
  alternative on the same text as its first.

  There is no `Monad` instance on purpose.  Since a sequence resets the rest of
  a failure, the monad laws fail for parsers that report another rest.
-/

namespace ExprText

variable {α β γ : Type}

/-! ## §1. Replies. -/

/-- What a parser answers. -/
inductive Reply (α : Type) where
  /-- Success, with the text that is left. -/
  | ok (value : α) (rest : List Char)
  /-- Failure, with the text that is reported as left. -/
  | fail (rest : List Char)
  deriving DecidableEq, Repr, Inhabited

namespace Reply

/-- The value of a success. -/
def value? : Reply α → Option α
  | ok value _ => some value
  | fail _ => none

/-- The text that is left. -/
def rest : Reply α → List Char
  | ok _ rest => rest
  | fail rest => rest

/-- Is the reply a success? -/
def succeeded (reply : Reply α) : Bool :=
  reply.value?.isSome

/-- Changes the value of a success. -/
def map (f : α → β) : Reply α → Reply β
  | ok value rest => ok (f value) rest
  | fail rest => fail rest

/-- Are two replies alike, when values are compared by `same`? -/
def sameBy (same : α → α → Bool) : Reply α → Reply α → Bool
  | ok a s, ok b t => same a b && s == t
  | fail s, fail t => s == t
  | _, _ => false

@[simp] theorem map_ok (f : α → β) (a : α) (t : List Char) : (ok a t).map f = ok (f a) t := rfl

@[simp] theorem map_fail (f : α → β) (t : List Char) : (fail t).map f = fail t := rfl

@[simp] theorem rest_map (f : α → β) (reply : Reply α) : (reply.map f).rest = reply.rest := by
  cases reply <;> rfl

@[simp] theorem succeeded_map (f : α → β) (reply : Reply α) :
    (reply.map f).succeeded = reply.succeeded := by
  cases reply <;> rfl

theorem succeeded_eq_true_iff {reply : Reply α} :
    reply.succeeded = true ↔ ∃ a t, reply = ok a t := by
  cases reply with
  | ok a t => exact ⟨fun _ => ⟨a, t, rfl⟩, fun _ => rfl⟩
  | fail t =>
    constructor
    · intro h; cases h
    · rintro ⟨_, _, h⟩; cases h

end Reply

/-! ## §2. Parsers. -/

/-- A parser of values of type `α`. -/
@[ext] structure Parser (α : Type) where
  /-- The reply to a text. -/
  run : List Char → Reply α

namespace Parser

/-- Succeeds with the value and reads nothing. -/
protected def pure (a : α) : Parser α where
  run s := .ok a s

/-- Fails and reads nothing. -/
protected def failure : Parser α where
  run s := .fail s

/-- One character of a class. -/
def satisfy (isMember : Char → Bool) : Parser Char where
  run
    | [] => .fail []
    | c :: s => if isMember c then .ok c s else .fail (c :: s)

/-- Exactly this character. -/
def char (c : Char) : Parser Char :=
  satisfy (· == c)

/-- Exactly this text. -/
def text (expected : String) : Parser String where
  run s :=
    if expected.toList.isPrefixOf s then .ok expected (s.drop expected.toList.length)
    else .fail s

/-- Changes the value; a failure is passed on as it is. -/
protected def map (f : α → β) (p : Parser α) : Parser β where
  run s := (p.run s).map f

/-- Changes the value or rejects it.  A rejection fails at the text the parser was started on; a
failure of `p` is passed on as it is. -/
protected def filterMap (f : α → Option β) (p : Parser α) : Parser β where
  run s :=
    match p.run s with
    | .ok a t =>
      match f a with
      | some b => .ok b t
      | none => .fail s
    | .fail t => .fail t

/-- Runs `p`, then the parser that `next` makes of its value, and combines both values.  Whichever
fails, the sequence gives back the whole text. -/
def bindWith (p : Parser α) (next : α → Parser β) (combine : α → β → γ) : Parser γ where
  run s :=
    match p.run s with
    | .ok a t =>
      match (next a).run t with
      | .ok b u => .ok (combine a b) u
      | .fail _ => .fail s
    | .fail _ => .fail s

/-- Both values, in order. -/
protected def seq (p : Parser α) (q : Parser β) : Parser (α × β) :=
  p.bindWith (fun _ => q) Prod.mk

/-- One after the other, for the value of the first. -/
protected def seqLeft (p : Parser α) (q : Parser β) : Parser α :=
  p.bindWith (fun _ => q) fun a _ => a

/-- One after the other, for the value of the second. -/
protected def seqRight (p : Parser α) (q : Parser β) : Parser β :=
  p.bindWith (fun _ => q) fun _ b => b

/-- The reply of `p` if it succeeds, and otherwise the reply of `q` to the same text. -/
protected def orElse (p q : Parser α) : Parser α where
  run s :=
    match p.run s with
    | .ok a t => .ok a t
    | .fail _ => q.run s

/-- One value or none.  It never fails, and without a value it reads nothing. -/
protected def optional (p : Parser α) : Parser (Option α) where
  run s :=
    match p.run s with
    | .ok a t => .ok (some a) t
    | .fail _ => .ok none s

/-- The first alternative of a list that succeeds. -/
def choice (alternatives : List (Parser α)) : Parser α :=
  alternatives.foldr Parser.orElse Parser.failure

instance : Functor Parser where
  map f p := p.map f

instance : SeqLeft Parser where
  seqLeft p q := p.seqLeft (q ())

instance : SeqRight Parser where
  seqRight p q := p.seqRight (q ())

instance : OrElse (Parser α) where
  orElse p q := p.orElse (q ())

/-! ## §3. What each parser replies. -/

@[simp] theorem map_eq (f : α → β) (p : Parser α) : f <$> p = p.map f := rfl

@[simp] theorem seqLeft_eq (p : Parser α) (q : Parser β) : p <* q = p.seqLeft q := rfl

@[simp] theorem seqRight_eq (p : Parser α) (q : Parser β) : p *> q = p.seqRight q := rfl

@[simp] theorem orElse_eq (p q : Parser α) : (p <|> q) = p.orElse q := rfl

@[simp] theorem run_pure (a : α) (s : List Char) : (Parser.pure a).run s = .ok a s := rfl

@[simp] theorem run_failure (s : List Char) : (Parser.failure : Parser α).run s = .fail s := rfl

@[simp] theorem run_map (f : α → β) (p : Parser α) (s : List Char) :
    (p.map f).run s = (p.run s).map f := rfl

theorem satisfy_eq_ok_iff {isMember : Char → Bool} {s t : List Char} {c : Char} :
    (satisfy isMember).run s = .ok c t ↔ s = c :: t ∧ isMember c = true := by
  cases s with
  | nil => simp [satisfy]
  | cons d s =>
    by_cases h : isMember d = true
    · -- the character is taken off the front
      simp only [satisfy, h, if_true, Reply.ok.injEq, List.cons.injEq]
      constructor
      · rintro ⟨rfl, rfl⟩; exact ⟨⟨rfl, rfl⟩, h⟩
      · rintro ⟨⟨rfl, rfl⟩, _⟩; exact ⟨rfl, rfl⟩
    · simp only [satisfy, h]
      constructor
      · intro hc; cases hc
      · rintro ⟨heq, hc⟩
        cases heq
        exact absurd hc h

theorem satisfy_fail {isMember : Char → Bool} {s t : List Char}
    (h : (satisfy isMember).run s = .fail t) : t = s := by
  cases s with
  | nil => cases h; rfl
  | cons d s =>
    by_cases hd : isMember d = true
    · simp [satisfy, hd] at h
    · simp only [satisfy, hd] at h
      cases h
      rfl

theorem char_eq_ok_iff {c d : Char} {s t : List Char} :
    (char c).run s = .ok d t ↔ s = c :: t ∧ d = c := by
  rw [char, satisfy_eq_ok_iff]
  constructor
  · rintro ⟨rfl, h⟩
    have hd : d = c := by simpa using h
    exact ⟨by rw [hd], hd⟩
  · rintro ⟨rfl, rfl⟩
    exact ⟨rfl, by simp⟩

theorem text_eq_ok_iff {expected value : String} {s t : List Char} :
    (text expected).run s = .ok value t ↔ s = expected.toList ++ t ∧ value = expected := by
  show (if expected.toList.isPrefixOf s then Reply.ok expected (s.drop expected.toList.length)
    else .fail s) = .ok value t ↔ _
  by_cases h : expected.toList.isPrefixOf s = true
  · -- the text goes on behind `expected`
    have happ := List.prefix_iff_eq_append.1 (List.isPrefixOf_iff_prefix.1 h)
    rw [if_pos h]
    constructor
    · intro hc
      cases hc
      exact ⟨happ.symm, rfl⟩
    · rintro ⟨rfl, rfl⟩
      rw [List.drop_left]
  · rw [if_neg h]
    constructor
    · intro hc
      cases hc
    · rintro ⟨rfl, _⟩
      exact absurd (List.isPrefixOf_iff_prefix.2 (List.prefix_append _ t)) h

theorem text_fail {expected : String} {s t : List Char}
    (h : (text expected).run s = .fail t) : t = s := by
  unfold text at h
  by_cases hp : expected.toList.isPrefixOf s = true
  · simp [hp] at h
  · simp [hp] at h
    exact h.symm

theorem map_eq_ok_iff {f : α → β} {p : Parser α} {s t : List Char} {b : β} :
    (p.map f).run s = .ok b t ↔ ∃ a, p.run s = .ok a t ∧ f a = b := by
  rw [run_map]
  cases h : p.run s with
  | fail u => simp
  | ok a u =>
    constructor
    · intro hb; cases hb; exact ⟨a, rfl, rfl⟩
    · intro ⟨a', ha, hb⟩
      cases ha
      rw [Reply.map_ok, hb]

theorem filterMap_eq_ok_iff {f : α → Option β} {p : Parser α} {s t : List Char} {b : β} :
    (p.filterMap f).run s = .ok b t ↔ ∃ a, p.run s = .ok a t ∧ f a = some b := by
  unfold Parser.filterMap
  cases h : p.run s with
  | fail u => simp [h]
  | ok a u =>
    cases hf : f a with
    | none =>
      simp only [h, hf]
      constructor
      · intro hc; cases hc
      · rintro ⟨a', ha, hb⟩; cases ha; rw [hf] at hb; cases hb
    | some b' =>
      simp only [h, hf]
      constructor
      · intro hc; cases hc; exact ⟨a, rfl, hf⟩
      · rintro ⟨a', ha, hb⟩; cases ha; rw [hf] at hb; cases hb; rfl

theorem bindWith_eq_ok_iff {p : Parser α} {next : α → Parser β} {combine : α → β → γ}
    {s u : List Char} {c : γ} :
    (p.bindWith next combine).run s = .ok c u ↔
      ∃ a t b, p.run s = .ok a t ∧ (next a).run t = .ok b u ∧ combine a b = c := by
  unfold bindWith
  cases h : p.run s with
  | fail t => simp [h]
  | ok a t =>
    cases hn : (next a).run t with
    | fail v =>
      simp only [h, hn]
      constructor
      · intro hc; cases hc
      · rintro ⟨a', t', b, hp, hb, _⟩
        cases hp
        rw [hn] at hb
        cases hb
    | ok b v =>
      simp only [h, hn]
      constructor
      · intro hc; cases hc; exact ⟨a, t, b, rfl, hn, rfl⟩
      · rintro ⟨a', t', b', hp, hb, rfl⟩
        cases hp
        rw [hn] at hb
        cases hb
        rfl

/-- A sequence that fails gives back the whole text. -/
theorem bindWith_fail {p : Parser α} {next : α → Parser β} {combine : α → β → γ}
    {s t : List Char} (h : (p.bindWith next combine).run s = .fail t) : t = s := by
  unfold bindWith at h
  cases hp : p.run s with
  | fail u => simp [hp] at h; exact h.symm
  | ok a u =>
    cases hn : (next a).run u with
    | fail v => simp [hp, hn] at h; exact h.symm
    | ok b v => simp [hp, hn] at h

theorem seq_eq_ok_iff {p : Parser α} {q : Parser β} {s u : List Char} {a : α} {b : β} :
    (p.seq q).run s = .ok (a, b) u ↔ ∃ t, p.run s = .ok a t ∧ q.run t = .ok b u := by
  rw [Parser.seq, bindWith_eq_ok_iff]
  constructor
  · intro ⟨_, t, _, hp, hq, hpair⟩; cases hpair; exact ⟨t, hp, hq⟩
  · intro ⟨t, hp, hq⟩; exact ⟨a, t, b, hp, hq, rfl⟩

theorem seqLeft_eq_ok_iff {p : Parser α} {q : Parser β} {s u : List Char} {a : α} :
    (p.seqLeft q).run s = .ok a u ↔ ∃ t b, p.run s = .ok a t ∧ q.run t = .ok b u := by
  rw [Parser.seqLeft, bindWith_eq_ok_iff]
  constructor
  · rintro ⟨_, t, b, hp, hq, rfl⟩; exact ⟨t, b, hp, hq⟩
  · rintro ⟨t, b, hp, hq⟩; exact ⟨a, t, b, hp, hq, rfl⟩

theorem seqRight_eq_ok_iff {p : Parser α} {q : Parser β} {s u : List Char} {b : β} :
    (p.seqRight q).run s = .ok b u ↔ ∃ t a, p.run s = .ok a t ∧ q.run t = .ok b u := by
  rw [Parser.seqRight, bindWith_eq_ok_iff]
  constructor
  · rintro ⟨a, t, _, hp, hq, rfl⟩; exact ⟨t, a, hp, hq⟩
  · rintro ⟨t, a, hp, hq⟩; exact ⟨a, t, b, hp, hq, rfl⟩

theorem run_orElse_of_ok {p q : Parser α} {s t : List Char} {a : α} (h : p.run s = .ok a t) :
    (p.orElse q).run s = .ok a t := by
  simp [Parser.orElse, h]

theorem run_orElse_of_fail {p q : Parser α} {s t : List Char} (h : p.run s = .fail t) :
    (p.orElse q).run s = q.run s := by
  simp [Parser.orElse, h]

/-- The second alternative is asked only where the first one fails. -/
theorem orElse_eq_ok_iff {p q : Parser α} {s t : List Char} {a : α} :
    (p.orElse q).run s = .ok a t ↔
      p.run s = .ok a t ∨ (∃ u, p.run s = .fail u) ∧ q.run s = .ok a t := by
  cases h : p.run s with
  | ok b u =>
    rw [run_orElse_of_ok h]
    simp
  | fail u =>
    rw [run_orElse_of_fail h]
    simp

theorem succeeded_orElse (p q : Parser α) (s : List Char) :
    ((p.orElse q).run s).succeeded = ((p.run s).succeeded || (q.run s).succeeded) := by
  cases h : p.run s with
  | ok a t => rw [run_orElse_of_ok h]; rfl
  | fail t => rw [run_orElse_of_fail h]; rfl

/-- A filter that takes every value of the first alternative may be applied to each alternative on
its own.  If it rejected one, the second alternative would be asked instead. -/
theorem filterMap_orElse {f : α → Option β} {p q : Parser α}
    (h : ∀ s a t, p.run s = .ok a t → ∃ b, f a = some b) :
    (p.orElse q).filterMap f = (p.filterMap f).orElse (q.filterMap f) := by
  ext s
  cases hp : p.run s with
  | fail t => simp [Parser.filterMap, Parser.orElse, hp]
  | ok a t =>
    obtain ⟨b, hb⟩ := h s a t hp
    simp [Parser.filterMap, Parser.orElse, hp, hb]

/-- A choice reads what one of its alternatives reads. -/
theorem exists_of_choice {ps : List (Parser α)} {s t : List Char} {a : α}
    (h : (choice ps).run s = .ok a t) : ∃ p ∈ ps, p.run s = .ok a t := by
  induction ps with
  | nil => cases h
  | cons p ps ih =>
    rcases orElse_eq_ok_iff.1 h with hfirst | ⟨_, hothers⟩
    · exact ⟨p, List.mem_cons_self, hfirst⟩
    · obtain ⟨q, hq, hrun⟩ := ih hothers
      exact ⟨q, List.mem_cons_of_mem p hq, hrun⟩

theorem run_optional_of_ok {p : Parser α} {s t : List Char} {a : α} (h : p.run s = .ok a t) :
    p.optional.run s = .ok (some a) t := by
  simp [Parser.optional, h]

theorem run_optional_of_fail {p : Parser α} {s t : List Char} (h : p.run s = .fail t) :
    p.optional.run s = .ok none s := by
  simp [Parser.optional, h]

end Parser

end ExprText
