import Cohort.Proofs.Search.Reader
import Cohort.Proofs.Value.Writing
import Cohort.Search.Literal

/-!
# Literals in a filter

A literal is kept as it is by the walk that reads a filter back: a bare one has
no sign of the language in it, and in a quoted one no backtick ends it but the
last.
-/

namespace Cohort.Search

open Decimal (Layout Fraction)

/-! ## Plain texts -/

namespace IsPlain

theorem append {a b : String} (ha : IsPlain a) (hb : IsPlain b) : IsPlain (a ++ b) := by
  intro c hc
  rw [String.toList_append, List.mem_append] at hc
  rcases hc with hc | hc
  · exact ha c hc
  · exact hb c hc

theorem ofList {cs : List Char} (h : ∀ c ∈ cs, isPlain c = true) : IsPlain (String.ofList cs) := by
  intro c hc
  rw [String.toList_ofList] at hc
  exact h c hc

end IsPlain

/-! ## Numbers -/

theorem isPlain_of_mem_toDigits (n : Nat) : ∀ c ∈ Nat.toDigits 10 n, isPlain c = true := by
  intro c hc
  have hdigit : c.isDigit = true := Nat.isDigit_of_mem_toDigits (by decide) (by decide) hc
  have hne : ∀ x : Char, x.isDigit = false → c ≠ x := by
    rintro x hx rfl
    cases hdigit.symm.trans hx
  simp [isPlain, hne]

theorem isPlain_zeros_append (k : Nat) {cs : List Char} (h : ∀ c ∈ cs, isPlain c = true) :
    ∀ c ∈ List.replicate k '0' ++ cs, isPlain c = true := by
  intro c hc
  rw [List.mem_append, List.mem_replicate] at hc
  rcases hc with ⟨-, rfl⟩ | hc
  · rfl
  · exact h c hc

/-- A whole number means nothing to the walk through a filter. -/
theorem isPlain_signed (n : Int) : IsPlain (Layout.signed n) := by
  have hdigits : IsPlain (Layout.digits n.natAbs) := .ofList (isPlain_of_mem_toDigits n.natAbs)
  have hminus : IsPlain "-" := by decide
  unfold Layout.signed
  split
  · exact hminus.append hdigits
  · exact hdigits

/-- A fraction with all its digits means nothing to the walk. -/
theorem isPlain_positional (l : Layout) (d : Fraction) : IsPlain (l.positional d) := by
  have hdigits := isPlain_of_mem_toDigits d.digits
  have hpoint : IsPlain "." := by decide
  have hzeroPoint : IsPlain "0." := by decide
  unfold Layout.positional
  dsimp only
  split
  · refine .append (.ofList ?_) ?_
    · intro c hc
      rw [List.mem_append, List.mem_replicate] at hc
      rcases hc with hc | ⟨-, rfl⟩
      · exact hdigits c hc
      · rfl
    · split
      · decide
      · decide
  · split
    · refine .append (.append (.ofList ?_) hpoint) (.ofList ?_)
      · intro c hc
        exact hdigits c (List.mem_of_mem_take hc)
      · intro c hc
        exact hdigits c (List.mem_of_mem_drop hc)
    · exact hzeroPoint.append (.ofList (isPlain_zeros_append _ hdigits))

/-- A fraction with a power of ten means nothing to the walk. -/
theorem isPlain_scientific (l : Layout) (d : Fraction) (power : Int) :
    IsPlain (l.scientific d power) := by
  have hdigits := isPlain_of_mem_toDigits d.digits
  unfold Layout.scientific
  dsimp only
  refine .append (.append ?_ ?_) ?_
  · split
    · decide
    · rename_i a h
      rw [h] at hdigits
      exact .ofList hdigits
    · rename_i a rest _ h
      rw [h, List.forall_mem_cons] at hdigits
      refine .ofList ?_
      rw [List.forall_mem_cons, List.forall_mem_cons]
      exact ⟨hdigits.1, rfl, hdigits.2⟩
  · split
    · decide
    · decide
  · exact .ofList (isPlain_zeros_append _ (isPlain_of_mem_toDigits power.natAbs))

/-- The text of a number is plain where the words for special numbers are. -/
theorem isPlain_render {l : Layout} (hnan : IsPlain l.nan) (hinf : IsPlain l.infinity)
    (hninf : IsPlain l.negativeInfinity) (x : Float) : IsPlain (l.render x) := by
  unfold Layout.render
  split
  · exact hnan
  · split
    · exact hninf
    · exact hinf
  · refine .append ?_ ?_
    · split
      · decide
      · decide
    · unfold Layout.magnitude
      dsimp only
      split
      · exact isPlain_positional l _
      · exact isPlain_scientific l _ _

/-! ## Texts -/

/-- Between backticks, an escaped text without backslashes is walked over without an end. -/
theorem scan_escapeBackticks {cs : List Char} (h : '\\' ∉ cs) (s : Scanner)
    (hs : s.place = .quoted) :
    s.scan (String.ofList (escapeBackticks cs)) =
      some { s with pending := s.pending ++ escapeBackticks cs } := by
  unfold Scanner.scan
  rw [String.toList_ofList]
  induction cs generalizing s with
  | nil => simp [escapeBackticks]
  | cons c cs ih =>
    rw [List.mem_cons, not_or] at h
    obtain ⟨hc, hcs⟩ := h
    by_cases htick : c = '\x60'
    · have hback : s.step '\\' =
          some { s with pending := s.pending ++ ['\\'], place := .escaped } := by
        simp [Scanner.step, Scanner.keep, hs, Place.next]
      have hstep :
          Scanner.step { s with pending := s.pending ++ ['\\'], place := .escaped } '\x60' =
            some { s with pending := s.pending ++ ['\\', '\x60'] } := by
        simp [Scanner.step, Scanner.keep, hs, Place.next]
      rw [escapeBackticks, if_pos htick, List.foldlM_cons, hback, Option.bind_eq_bind,
        Option.bind_some, List.foldlM_cons, hstep]
      refine (ih hcs { s with pending := s.pending ++ ['\\', '\x60'] } hs).trans ?_
      simp
    · have hstep : s.step c = some { s with pending := s.pending ++ [c] } := by
        simp [Scanner.step, Scanner.keep, hs, Place.next, htick, Ne.symm hc]
      rw [escapeBackticks, if_neg htick, List.foldlM_cons, hstep]
      refine (ih hcs { s with pending := s.pending ++ [c] } hs).trans ?_
      simp

/-- A text without a backslash is kept between backticks. -/
theorem kept_quoted {cs : List Char} (h : '\\' ∉ cs) :
    Kept ("\x60" ++ String.ofList (escapeBackticks cs) ++ "\x60") := by
  intro s hs
  have hopen : s.scan "\x60" =
      some { s with pending := s.pending ++ ['\x60'], place := .quoted } := by
    simp [Scanner.scan, Scanner.step, Scanner.keep, hs, Place.next]
  have hmid := scan_escapeBackticks h
    { s with pending := s.pending ++ ['\x60'], place := .quoted } rfl
  rw [Scanner.scan_append, Scanner.scan_append, hopen, Option.bind_some, hmid, Option.bind_some]
  simp [Scanner.scan, Scanner.step, Scanner.keep, hs, Place.next]

/-- What may stand in a bare text means nothing to the walk. -/
theorem isPlain_of_not_isSpecial {c : Char} (h : isSpecial c = false) : isPlain c = true := by
  rw [isSpecial, Bool.or_eq_false_iff] at h
  have hne : ∀ x ∈ signs, c ≠ x := by
    rintro x hx rfl
    have hcontains : signs.contains c = true := by simpa using hx
    cases h.2.symm.trans hcontains
  have hopen : c ≠ '(' := hne _ (by decide)
  have hclose : c ≠ ')' := hne _ (by decide)
  have htick : c ≠ '\x60' := hne _ (by decide)
  simp [isPlain, hopen, hclose, htick]

/-- The literal of a text without backslashes is passed over as a whole. -/
theorem kept_literalText {cs : List Char} (h : '\\' ∉ cs) :
    Kept (String.ofList (literalText cs)) := by
  unfold literalText
  by_cases hspecial : cs.any isSpecial = true
  · have htext : String.ofList ('\x60' :: escapeBackticks cs ++ ['\x60']) =
        "\x60" ++ String.ofList (escapeBackticks cs) ++ "\x60" := by
      apply String.toList_injective
      simp
    rw [if_pos hspecial, htext]
    exact kept_quoted h
  · rw [if_neg hspecial]
    refine (IsPlain.ofList ?_).kept
    intro c hc
    rw [List.any_eq_true] at hspecial
    refine isPlain_of_not_isSpecial (Bool.eq_false_iff.mpr ?_)
    intro hc'
    exact hspecial ⟨c, hc, hc'⟩

/-! ## Values -/

/-- A value whose literal can be read back: nothing, a truth value, a number, or a text without a
backslash. -/
def isSafe : Value → Bool
  | .null | .bool _ | .int _ | .float _ => true
  | .text s => !s.toList.contains '\\'
  | _ => false

/-- The literal of a safe value is passed over as a whole. -/
theorem kept_literal {v : Value} (hv : isSafe v = true) {t : String} (ht : literal v = .ok t) :
    Kept t := by
  cases v with
  | null =>
    cases ht
    exact IsPlain.kept (by decide)
  | bool b =>
    cases ht
    cases b <;> exact IsPlain.kept (by decide)
  | int n =>
    obtain rfl : Layout.signed n = t := Layout.eq_signed_of_integer ht
    exact (isPlain_signed n).kept
  | float x =>
    refine IsPlain.kept ?_
    unfold literal at ht
    dsimp only at ht
    split at ht
    · cases ht
      exact isPlain_signed _
    · rw [Value.literal] at ht
      cases ht
      exact isPlain_render (by decide) (by decide) (by decide) x
  | text s =>
    cases ht
    refine kept_literalText ?_
    simpa [isSafe] using hv
  | _ => cases hv

/-- A value has a literal just if it can be written. -/
theorem isWriting_literal (v : Value) : Value.IsWriting (literal v) v.isWritable := by
  cases v with
  | bool b => exact .pure _
  | text s => exact .pure _
  | float x =>
    unfold literal
    dsimp only
    split
    · exact .pure _
    · exact Value.isWriting_literal (.float x)
  | _ => exact Value.isWriting_display _

end Cohort.Search
