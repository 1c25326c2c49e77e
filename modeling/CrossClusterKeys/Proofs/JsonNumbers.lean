import CrossClusterKeys.Json.Grammar
import CrossClusterKeys.Proofs.JsonDocument
import Mathlib.Data.List.TakeDrop
import Mathlib.Data.List.TakeWhile

/-!
# Numbers are read by the grammar

What the reader makes of the head of a text where a number may stand, compared with the grammar in
both directions.

**Ends.**  A number goes on as far as it can, so a number of the grammar is read as such only if
the text behind it cannot continue it.  `Ends` says what stands behind a document inside another
one: a blank, a comma, a closing bracket or nothing.

**Results.**
* `readNumber_outcome`: what is read is a number of the grammar, and what is refused is no number or
  has a whole number with too many digits at its head.
* `readNumber_of_unsigned`, `readNumber_of_longNumber`: both are read and refused as such.
* `Unsigned.within_or_long`: a number of any length is one or the other.
-/

namespace CrossClusterKeys
namespace Json

/-- What is read is as it has to be, and what is refused is malformed or an overrun. -/
inductive Outcome {α : Type} (P : α → Text → Prop) (Q : Refusal → Prop) : Reading α → Prop
  | read {a rest} (h : P a rest) : Outcome P Q (.ok (a, rest))
  | overrun {r} (h : Q r) : Outcome P Q (.error r)
  | malformed (flaw : Flaw) : Outcome P Q (.error (.malformed flaw))

section Outcomes

variable {α β : Type} {P : α → Text → Prop} {P' : β → Text → Prop} {Q Q' : Refusal → Prop}

theorem Outcome.of_ok {a : α} {rest : Text} (h : Outcome P Q (.ok (a, rest))) : P a rest := by
  cases h with
  | read h => exact h

theorem Outcome.of_error {r : Refusal} (h : Outcome P Q (.error r)) (hq : Q r → Q' r) :
    Outcome P' Q' (.error r) := by
  cases h with
  | overrun h => exact .overrun (hq h)
  | malformed flaw => exact .malformed flaw

theorem Outcome.map {x : Reading α} (h : Outcome P Q x) (f : α → β)
    (hp : ∀ a rest, P a rest → P' (f a) rest) (hq : ∀ r, Q r → Q' r) :
    Outcome P' Q' (x.map fun p => (f p.1, p.2)) := by
  cases h with
  | read h => exact .read (hp _ _ h)
  | overrun h => exact .overrun (hq _ h)
  | malformed flaw => exact .malformed flaw

theorem Outcome.mono {P₁ : α → Text → Prop} {x : Reading α} (h : Outcome P Q x)
    (hp : ∀ a rest, P a rest → P₁ a rest) (hq : ∀ r, Q r → Q' r) : Outcome P₁ Q' x := by
  cases h with
  | read h => exact .read (hp _ _ h)
  | overrun h => exact .overrun (hq _ h)
  | malformed flaw => exact .malformed flaw

end Outcomes

section Digits

/-- No digit stands at the head of the text. -/
def StopsDigits (t : Text) : Prop := ∀ c ∈ t.head?, c.isDigit = false

theorem span_digits (t : Text) :
    ∃ ds more, t.span CodePoint.isDigit = (ds, more) ∧ t = ds ++ more ∧
      (∀ d ∈ ds, d.isDigit = true) ∧ StopsDigits more := by
  refine ⟨_, _, List.span_eq_takeWhile_dropWhile _ t, List.takeWhile_append_dropWhile.symm,
    fun _ hd => List.mem_takeWhile_imp hd, fun c hc => ?_⟩
  induction t with
  | nil => cases hc
  | cons d t ih =>
    rw [List.dropWhile_cons] at hc
    split at hc
    · exact ih hc
    · next hd =>
      obtain rfl : d = c := Option.some.inj hc
      exact Bool.eq_false_iff.2 hd

theorem span_digits_append {ds more : Text} (h : ∀ d ∈ ds, d.isDigit = true)
    (hmore : StopsDigits more) : (ds ++ more).span CodePoint.isDigit = (ds, more) := by
  rw [List.span_eq_takeWhile_dropWhile, List.takeWhile_append_of_pos h,
    List.dropWhile_append_of_pos h]
  cases more with
  | nil => simp
  | cons c more =>
    have hc : c.isDigit = false := hmore c rfl
    simp [hc]

theorem ne_of_isDigit {c d : CodePoint} (h : c.isDigit = true) (hd : d.isDigit = false) :
    c ≠ d := by
  rintro rfl
  rw [h] at hd
  cases hd

theorem IsDigits.exists_cons {ds : Text} (h : IsDigits ds) :
    ∃ d ds', ds = d :: ds' ∧ d.isDigit = true := by
  obtain ⟨hne, hall⟩ := h
  cases ds with
  | nil => exact absurd rfl hne
  | cons d ds => exact ⟨d, ds, rfl, hall d List.mem_cons_self⟩

theorem IsDigits.not_stopsDigits {ds : Text} (h : IsDigits ds) (u : Text) :
    ¬ StopsDigits (ds ++ u) := by
  obtain ⟨d, ds, rfl, hd⟩ := h.exists_cons
  exact fun hstops => Bool.eq_false_iff.1 (hstops d rfl) hd

theorem IsWhole.isDigits {ds : Text} (h : IsWhole ds) : IsDigits ds := by
  rcases h with rfl | ⟨h, -⟩
  · exact ⟨by decide, by decide⟩
  · exact h

end Digits

section Parts

/-- The whole part that is read is one, if it is anything. -/
theorem wholePart_spec (t : Text) :
    ∃ ds more, wholePart t = (ds, more) ∧ t = ds ++ more ∧ (ds = [] ∨ IsWhole ds) ∧
      (ds = [CodePoint.ofChar '0'] ∨ StopsDigits more) := by
  cases t with
  | nil => exact ⟨[], [], rfl, rfl, Or.inl rfl, Or.inr fun c hc => nomatch hc⟩
  | cons c t =>
    rw [wholePart]
    by_cases hc : c = '0'
    · subst hc
      exact ⟨[CodePoint.ofChar '0'], t, if_pos rfl, rfl, Or.inr (Or.inl rfl), Or.inl rfl⟩
    · obtain ⟨ds, more, hspan, hsplit, hds, hmore⟩ := span_digits (c :: t)
      refine ⟨ds, more, (if_neg hc).trans hspan, hsplit, ?_, Or.inr hmore⟩
      cases ds with
      | nil => exact Or.inl rfl
      | cons d ds =>
        obtain rfl : c = d := (List.cons.inj hsplit).1
        exact Or.inr (Or.inr ⟨⟨List.cons_ne_nil _ _, hds⟩, fun h => hc (Option.some.inj h)⟩)

theorem wholePart_append {ds more : Text} (h : IsWhole ds) (hmore : StopsDigits more) :
    wholePart (ds ++ more) = (ds, more) := by
  rcases h with rfl | ⟨hds, hhead⟩
  · rfl
  · obtain ⟨d, ds, rfl, hd⟩ := hds.exists_cons
    have hne : ¬ d = '0' := fun h => hhead (congrArg some h)
    rw [List.cons_append, wholePart, if_neg hne, ← List.cons_append]
    exact span_digits_append hds.2 hmore

/-- The digits behind a point that are read, and that there are none otherwise. -/
theorem fractionPart_spec (t : Text) :
    ∃ f part more, fractionPart t = (part, more) ∧ t = f ++ more ∧ Fraction f part ∧
      (part = [] → f = [] ∧ ∀ ds u, IsDigits ds → t ≠ CodePoint.ofChar '.' :: (ds ++ u)) := by
  cases t with
  | nil => exact ⟨[], [], [], rfl, rfl, .none, fun _ => ⟨rfl, fun ds u _ h => nomatch h⟩⟩
  | cons c t =>
    by_cases hc : c = '.'
    · subst hc
      obtain ⟨ds, more, hspan, hsplit, hds, hmore⟩ := span_digits t
      rw [fractionPart, if_pos rfl, hspan]
      cases ds with
      | nil =>
        refine ⟨[], [], _, rfl, rfl, .none, fun _ => ⟨rfl, fun ds u hds' h => ?_⟩⟩
        have ht : more = ds ++ u := hsplit.symm.trans (List.cons.inj h).2
        exact hds'.not_stopsDigits u (ht ▸ hmore)
      | cons d ds =>
        refine ⟨'.' :: d :: ds, d :: ds, more, rfl, ?_, .digits ⟨List.cons_ne_nil _ _, hds⟩,
          fun h => nomatch h⟩
        rw [hsplit]
        rfl
    · rw [fractionPart, if_neg hc]
      exact ⟨[], [], _, rfl, rfl, .none, fun _ => ⟨rfl, fun ds u _ h => hc (List.cons.inj h).1⟩⟩

theorem fractionPart_append {f part more : Text} (h : Fraction f part) (hmore : StopsDigits more)
    (hpoint : more.head? ≠ some (CodePoint.ofChar '.')) :
    fractionPart (f ++ more) = (part, more) := by
  cases h with
  | none =>
    cases more with
    | nil => rfl
    | cons c more =>
      have hc : ¬ c = '.' := fun h => hpoint (congrArg some h)
      exact if_neg hc
  | digits h =>
    obtain ⟨d, ds, rfl, -⟩ := h.exists_cons
    rw [List.cons_append, fractionPart, if_pos rfl, span_digits_append h.2 hmore]
    rfl

theorem signPart_spec (t : Text) :
    ∃ s negative more, signPart t = (negative, more) ∧ t = s ++ more ∧
      ExponentSign s negative := by
  cases t with
  | nil => exact ⟨[], false, [], rfl, rfl, .none⟩
  | cons c t =>
    by_cases hminus : c = '-'
    · subst hminus
      exact ⟨_, true, t, rfl, rfl, .minus⟩
    · by_cases hplus : c = '+'
      · subst hplus
        exact ⟨_, false, t, rfl, rfl, .plus⟩
      · refine ⟨[], false, c :: t, ?_, rfl, .none⟩
        rw [signPart, if_neg hminus, if_neg hplus]

theorem signPart_append {s ds more : Text} {negative : Bool} (h : ExponentSign s negative)
    (hds : IsDigits ds) : signPart (s ++ (ds ++ more)) = (negative, ds ++ more) := by
  cases h with
  | none =>
    obtain ⟨d, ds, rfl, hd⟩ := hds.exists_cons
    have hminus : ¬ d = '-' := ne_of_isDigit hd (by decide)
    have hplus : ¬ d = '+' := ne_of_isDigit hd (by decide)
    rw [List.nil_append, List.cons_append, signPart, if_neg hminus, if_neg hplus]
  | plus => rfl
  | minus => rfl

end Parts

section Exponents

theorem exponentPart_spec (t : Text) :
    ∃ x exponent more, exponentPart t = (exponent, more) ∧ t = x ++ more ∧ Exponent x exponent ∧
      (exponent = none → x = [] ∧ ∀ (e : CodePoint) (s ds u : Text) (negative : Bool),
        (e = 'e' ∨ e = 'E') → ExponentSign s negative → IsDigits ds → t ≠ e :: (s ++ ds ++ u)) := by
  cases t with
  | nil => exact ⟨[], none, [], rfl, rfl, .none, fun _ => ⟨rfl, fun _ _ _ _ _ _ _ _ h => nomatch h⟩⟩
  | cons c t =>
    by_cases hc : c = 'e' ∨ c = 'E'
    · have hcond : (decide (c = 'e') || decide (c = 'E')) = true := by
        simpa only [Bool.or_eq_true, decide_eq_true_eq] using hc
      obtain ⟨s, negative, u, hsign, hsplit, hs⟩ := signPart_spec t
      obtain ⟨ds, more, hspan, hsplit', hds, hmore⟩ := span_digits u
      rw [exponentPart, if_pos hcond, hsign]
      simp only [hspan]
      cases ds with
      | nil =>
        refine ⟨[], none, c :: t, rfl, rfl, .none, fun _ => ⟨rfl, ?_⟩⟩
        -- The sign is read whatever follows, so the digits of an exponent would be read behind it.
        rintro e s' ds' v negative' - hs' hds' h
        obtain ⟨-, ht⟩ := List.cons.inj h
        rw [List.append_assoc] at ht
        rw [ht, signPart_append hs' hds'] at hsign
        have hu : more = ds' ++ v := hsplit'.symm.trans (Prod.mk.inj hsign).2.symm
        exact hds'.not_stopsDigits v (hu ▸ hmore)
      | cons d ds =>
        refine ⟨c :: (s ++ d :: ds), _, more, rfl, ?_, .digits hc hs ⟨List.cons_ne_nil _ _, hds⟩,
          fun h => nomatch h⟩
        simp only [hsplit, hsplit', List.cons_append, List.append_assoc]
    · have hcond : ¬ (decide (c = 'e') || decide (c = 'E')) = true := by
        simpa only [Bool.or_eq_true, decide_eq_true_eq] using hc
      rw [exponentPart, if_neg hcond]
      exact ⟨[], none, _, rfl, rfl, .none,
        fun _ => ⟨rfl, fun e s ds u negative he _ _ h => hc ((List.cons.inj h).1 ▸ he)⟩⟩

theorem exponentPart_append {x more : Text} {exponent : Option Int} (h : Exponent x exponent)
    (hmore : StopsDigits more) (he : ∀ c ∈ more.head?, c ≠ 'e' ∧ c ≠ 'E') :
    exponentPart (x ++ more) = (exponent, more) := by
  cases h with
  | none =>
    cases more with
    | nil => rfl
    | cons c more =>
      obtain ⟨h1, h2⟩ := he c rfl
      have hcond : ¬ (decide (c = 'e') || decide (c = 'E')) = true := by
        simpa only [Bool.or_eq_true, decide_eq_true_eq, not_or] using And.intro h1 h2
      exact if_neg hcond
  | @digits e s negative ds he' hs hds =>
    have hcond : (decide (e = 'e') || decide (e = 'E')) = true := by
      simpa only [Bool.or_eq_true, decide_eq_true_eq] using he'
    obtain ⟨d, ds', rfl, -⟩ := hds.exists_cons
    rw [List.cons_append, List.append_assoc, exponentPart, if_pos hcond, signPart_append hs hds]
    simp only [span_digits_append hds.2 hmore]
    rfl

end Exponents

section Numbers

/-- What stands behind a document inside another one, or at the end of the text. -/
def Ends (t : Text) : Prop :=
  ∀ c ∈ t.head?, isGap c = true ∨ c = ',' ∨ c = ']' ∨ c = '\x7d'

theorem Ends.of_skipGap {t u : Text} {c : CodePoint} (h : skipGap t = c :: u)
    (hc : c = ',' ∨ c = ']' ∨ c = '\x7d') : Ends t := by
  cases t with
  | nil => cases h
  | cons d t =>
    intro e he
    obtain rfl : d = e := Option.some.inj he
    by_cases hd : isGap d = true
    · exact Or.inl hd
    · rw [skipGap_cons (Bool.eq_false_iff.2 hd)] at h
      obtain ⟨rfl, -⟩ := List.cons.inj h
      exact Or.inr hc

theorem Ends.of_skipGap_nil {t : Text} (h : skipGap t = []) : Ends t := by
  cases t with
  | nil => exact fun c hc => nomatch hc
  | cons d t =>
    intro e he
    obtain rfl : d = e := Option.some.inj he
    refine Or.inl (by_contra fun hd => ?_)
    rw [skipGap_cons (Bool.eq_false_iff.2 hd)] at h
    cases h

/-- Nothing that could belong to a number stands there. -/
theorem Ends.head {t : Text} (h : Ends t) {c : CodePoint} (hc : c ∈ t.head?) :
    c.isDigit = false ∧ c ≠ '.' ∧ c ≠ 'e' ∧ c ≠ 'E' := by
  rcases h c hc with hgap | rfl | rfl | rfl
  · simp only [isGap, Bool.or_eq_true, decide_eq_true_eq] at hgap
    rcases hgap with ((rfl | rfl) | rfl) | rfl
    all_goals decide
  all_goals decide

theorem Ends.not_continues {t : Text} (h : Ends t) : ¬ Continues t := by
  intro ht
  cases ht with
  | digit hd => exact absurd hd (Bool.eq_false_iff.1 (h.head rfl).1)
  | fraction => exact (h.head rfl).2.1 rfl
  | exponent he =>
    obtain ⟨-, -, h1, h2⟩ := h.head rfl
    exact he.elim h1 h2

theorem stopsDigits_of_not_continues {t : Text} (h : ¬ Continues t) : StopsDigits t := by
  intro c hc
  cases t with
  | nil => cases hc
  | cons d t =>
    obtain rfl : d = c := Option.some.inj hc
    exact Bool.eq_false_iff.2 fun hd => h (.digit hd)

theorem fractionPart_of_not_continues {t : Text} (h : ¬ Continues t) :
    fractionPart t = ([], t) := by
  obtain ⟨f, part, more, hread, rfl, hf, -⟩ := fractionPart_spec t
  cases hf with
  | none => exact hread
  | digits hds => exact absurd (.fraction hds) h

theorem exponentPart_of_not_continues {t : Text} (h : ¬ Continues t) :
    exponentPart t = (none, t) := by
  obtain ⟨x, exponent, more, hread, rfl, hx, -⟩ := exponentPart_spec t
  cases hx with
  | none => exact hread
  | digits he hs hds => exact absurd (.exponent he hs hds) h

section Unsigned

variable {negative : Bool} {t t₁ t₂ ds part rest : Text} {exponent : Option Int}

theorem readUnsigned_int (hds : IsWhole ds) (hwhole : wholePart t = (ds, rest))
    (hfraction : fractionPart rest = ([], rest)) (hexponent : exponentPart rest = (none, rest)) :
    readUnsigned negative t =
      if digitLimit < ds.length then .error (.tooLong ds.length)
      else .ok (.int (if negative then -(Decimal.valueOf ds : Int) else Decimal.valueOf ds),
        rest) := by
  have hne : ¬ ds.isEmpty = true := fun h => hds.isDigits.1 (List.isEmpty_iff.1 h)
  simp only [readUnsigned, hwhole, hfraction, hexponent, if_neg hne]
  rfl

theorem readUnsigned_real (hds : IsWhole ds) (hwhole : wholePart t = (ds, t₁))
    (hfraction : fractionPart t₁ = (part, t₂)) (hexponent : exponentPart t₂ = (exponent, rest))
    (hreal : part ≠ [] ∨ exponent ≠ none) :
    readUnsigned negative t =
      .ok (.real (Binary64.ofDecimal negative (Decimal.valueOf (ds ++ part))
        (exponent.getD 0 - part.length)), rest) := by
  have hne : ¬ ds.isEmpty = true := fun h => hds.isDigits.1 (List.isEmpty_iff.1 h)
  have hcond : ¬ (part.isEmpty && exponent.isNone) = true := by
    simp only [Bool.and_eq_true, List.isEmpty_iff, Option.isNone_iff_eq_none]
    exact fun h => hreal.elim (fun h' => h' h.1) (fun h' => h' h.2)
  simp only [readUnsigned, hwhole, hfraction, hexponent, if_neg hne, if_neg hcond]

end Unsigned

/-- Behind a sign, what is read makes a number of the grammar with it; what is refused is no number
or has a whole number with too many digits at its head. -/
theorem readUnsigned_outcome {s : Text} {negative : Bool} (hs : NumberSign s negative) (t : Text) :
    Outcome (Atom digitLimit (s ++ t)) (LongNumber digitLimit (s ++ t))
      (readUnsigned negative t) := by
  obtain ⟨ds, t₁, hwhole, rfl, hds, hstop⟩ := wholePart_spec t
  obtain ⟨f, part, t₂, hfraction, rfl, hf, hpart⟩ := fractionPart_spec t₁
  obtain ⟨x, exponent, rest, hexponent, rfl, hx, hnone⟩ := exponentPart_spec t₂
  rcases hds with rfl | hds
  · rw [readUnsigned, hwhole]
    exact .malformed .value
  -- Only a number without fraction and exponent is whole, and only a whole one can be too long.
  by_cases hint : part = [] ∧ exponent = none
  · obtain ⟨rfl, rfl⟩ := hint
    obtain ⟨rfl, hnofraction⟩ := hpart rfl
    obtain ⟨rfl, hnoexponent⟩ := hnone rfl
    rw [readUnsigned_int hds hwhole hfraction hexponent]
    by_cases hlimit : digitLimit < ds.length
    · rw [if_pos hlimit]
      refine .overrun (.intro hs hds hlimit ?_)
      rintro (hd | hds' | ⟨he, hs, hds'⟩)
      · rcases hstop with rfl | hstop
        · exact absurd hlimit (by decide)
        · rw [hstop _ rfl] at hd
          cases hd
      · exact hnofraction _ _ hds' rfl
      · exact hnoexponent _ _ _ _ _ he hs hds' rfl
    · rw [if_neg hlimit]
      exact .read (.number hs (.int hds (Nat.le_of_not_lt hlimit)))
  · have hreal : part ≠ [] ∨ exponent ≠ none := Decidable.not_and_iff_or_not.1 hint
    rw [readUnsigned_real hds hwhole hfraction hexponent hreal]
    have h : Atom digitLimit (s ++ (ds ++ (f ++ x) ++ rest)) _ rest :=
      .number hs (.real hds hf hx hreal)
    simp only [List.append_assoc] at h
    exact .read h

theorem readUnsigned_of_unsigned {negative : Bool} {n rest : Text} {j : Json}
    (h : Unsigned digitLimit negative n j) (hrest : Ends rest) :
    readUnsigned negative (n ++ rest) = .ok (j, rest) := by
  have hcontinues := hrest.not_continues
  have hdigits := stopsDigits_of_not_continues hcontinues
  cases h with
  | int hds hlimit =>
    rw [readUnsigned_int hds (wholePart_append hds hdigits)
      (fractionPart_of_not_continues hcontinues) (exponentPart_of_not_continues hcontinues),
      if_neg (Nat.not_lt.2 hlimit)]
  | @real ds f part x exponent hds hf hx hreal =>
    have hexponent : ∀ c ∈ (x ++ rest).head?, c.isDigit = false ∧ c ≠ '.' := by
      intro c hc
      cases hx with
      | none => exact ⟨(hrest.head hc).1, (hrest.head hc).2.1⟩
      | digits he =>
        obtain rfl := Option.some.inj hc
        rcases he with rfl | rfl
        all_goals decide
    have hfraction : StopsDigits (f ++ (x ++ rest)) := by
      cases hf with
      | none => exact fun c hc => (hexponent c hc).1
      | digits =>
        intro c hc
        obtain rfl := Option.some.inj hc
        decide
    simp only [List.append_assoc]
    exact readUnsigned_real hds (wholePart_append hds hfraction)
      (fractionPart_append hf (fun c hc => (hexponent c hc).1) fun h => (hexponent _ h).2 rfl)
      (exponentPart_append hx hdigits fun c hc => (hrest.head hc).2.2) hreal

theorem readUnsigned_of_tooLong {negative : Bool} {ds rest : Text} (hds : IsWhole ds)
    (hlimit : digitLimit < ds.length) (hrest : ¬ Continues rest) :
    readUnsigned negative (ds ++ rest) = .error (.tooLong ds.length) := by
  rw [readUnsigned_int hds (wholePart_append hds (stopsDigits_of_not_continues hrest))
    (fractionPart_of_not_continues hrest) (exponentPart_of_not_continues hrest), if_pos hlimit]

theorem Unsigned.exists_cons {limit : Nat} {negative : Bool} {n : Text} {j : Json}
    (h : Unsigned limit negative n j) : ∃ d n', n = d :: n' ∧ d.isDigit = true := by
  cases h with
  | int hds => exact hds.isDigits.exists_cons
  | real hds =>
    obtain ⟨d, ds, rfl, hd⟩ := hds.isDigits.exists_cons
    exact ⟨d, _, rfl, hd⟩

theorem readNumber_append {s t : Text} {negative : Bool} {d : CodePoint}
    (hs : NumberSign s negative) (hd : d.isDigit = true) :
    readNumber (s ++ d :: t) = readUnsigned negative (d :: t) := by
  cases hs with
  | none => rw [List.nil_append, readNumber, if_neg (ne_of_isDigit hd (by decide))]
  | minus => rw [List.singleton_append, readNumber, if_pos rfl]

/-- What is read is a number of the grammar; what is refused is no number or has a whole number with
too many digits at its head. -/
theorem readNumber_outcome (t : Text) :
    Outcome (Atom digitLimit t) (LongNumber digitLimit t) (readNumber t) := by
  cases t with
  | nil => exact .malformed .value
  | cons c t =>
    by_cases hc : c = '-'
    · subst hc
      rw [readNumber, if_pos rfl]
      exact readUnsigned_outcome .minus t
    · rw [readNumber, if_neg hc]
      exact readUnsigned_outcome .none (c :: t)

theorem readNumber_eq_malformed {c : CodePoint} (hminus : c ≠ '-') (hdigit : c.isDigit = false)
    (t : Text) : readNumber (c :: t) = .error (.malformed .value) := by
  have hzero : c ≠ '0' := fun h => ne_of_isDigit (d := c) (by decide) hdigit h.symm
  have hspan := @span_digits_append [] (c :: t) (fun _ h => nomatch h)
    fun d hd => Option.some.inj hd ▸ hdigit
  rw [List.nil_append] at hspan
  rw [readNumber, if_neg hminus, readUnsigned, wholePart, if_neg hzero, hspan]
  rfl

theorem readNumber_of_unsigned {s n rest : Text} {negative : Bool} {j : Json}
    (hs : NumberSign s negative) (h : Unsigned digitLimit negative n j) (hrest : Ends rest) :
    readNumber (s ++ (n ++ rest)) = .ok (j, rest) := by
  obtain ⟨d, n', rfl, hd⟩ := h.exists_cons
  rw [List.cons_append, readNumber_append hs hd, ← List.cons_append]
  exact readUnsigned_of_unsigned h hrest

theorem readNumber_of_longNumber {t : Text} {r : Refusal} (h : LongNumber digitLimit t r) :
    readNumber t = .error r := by
  obtain ⟨hs, hds, hlimit, hrest⟩ := h
  obtain ⟨d, ds', rfl, hd⟩ := hds.isDigits.exists_cons
  rw [List.cons_append, readNumber_append hs hd, ← List.cons_append]
  exact readUnsigned_of_tooLong hds hlimit hrest

/-- A number of any length is within the limit, or it is one with too many digits. -/
theorem Unsigned.within_or_long {limit : Nat} {s n rest : Text} {negative : Bool} {j : Json}
    (hs : NumberSign s negative) (h : Unsigned limit negative n j) (hrest : Ends rest) :
    Unsigned digitLimit negative n j ∨ ∃ r, LongNumber digitLimit (s ++ (n ++ rest)) r := by
  cases h with
  | int hds =>
    rcases Nat.lt_or_ge digitLimit n.length with hlimit | hlimit
    · exact Or.inr ⟨_, .intro hs hds hlimit hrest.not_continues⟩
    · exact Or.inl (.int hds hlimit)
  | real hds hf hx hreal => exact Or.inl (.real hds hf hx hreal)

end Numbers

end Json
end CrossClusterKeys
