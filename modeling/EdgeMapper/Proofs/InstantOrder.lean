import EdgeMapper.Proofs.Calendar
import Mathlib.Algebra.Group.Nat.Defs
/-!
# Instants in the order of their texts

Numbers that are written with the same number of digits come in the order of their texts, and so do texts
that are put together from parts of the same length when the first part that differs decides. Dates and
times of day are of this kind. The fraction of a second is not, for it is left out when it is zero; but then
a plus sign stands where the point would be, and the plus sign comes first. The main statement is that of
two moments from 1970 to the end of 9999 the earlier one has the smaller text.
-/

namespace EdgeMapper

/-- Two texts of the same length, the first of which is smaller. -/
structure Precedes (s t : String) : Prop where
  length : s.length = t.length
  lt : s < t

def digits : Nat → Nat → List Char
  | 0, _ => []
  | width + 1, n => digits width (n / 10) ++ [Nat.digitChar (n % 10)]

def fields (width : Nat) (mark : String) (a b c : Nat) : String :=
  padded width a ++ (mark ++ (padded 2 b ++ (mark ++ padded 2 c)))

structure Date.Fits (d : Date) : Prop where
  nonneg : 0 ≤ d.year
  year : d.year ≤ 9999
  month : d.month < 100
  day : d.day < 100

namespace Instant

/-- The years from 1970 to 9999. -/
def InEra (t : Instant) : Prop := 0 ≤ t.micros ∧ t.micros < 253402300800000000

def day (t : Instant) : Int := t.micros / 86400000000

def second (t : Instant) : Nat := (t.micros % 86400000000).toNat / 1000000

def fraction (t : Instant) : Nat := (t.micros % 86400000000).toNat % 1000000

def clockText (second : Nat) : String := fields 2 ":" (second / 3600) (second / 60 % 60) (second % 60)

def fractionText (fraction : Nat) : String := if fraction = 0 then "" else "." ++ padded 6 fraction

end Instant

/-! ## Texts -/

theorem append_lt_append_of_lt {a b : List Char} (hlength : a.length = b.length) (h : a < b)
    (c d : List Char) : a ++ c < b ++ d := by
  induction a generalizing b with
  | nil =>
      obtain rfl := List.eq_nil_of_length_eq_zero hlength.symm
      exact absurd h (List.not_lt_nil [])
  | cons x a ih =>
      cases b with
      | nil => cases hlength
      | cons y b =>
          rw [List.cons_append, List.cons_append, List.cons_lt_cons_iff]
          rcases List.cons_lt_cons_iff.mp h with hhead | ⟨hsame, htail⟩
          · exact .inl hhead
          · exact .inr ⟨hsame, ih (Nat.succ.inj hlength) htail⟩

theorem string_append_left_lt {t u : String} (s : String) (h : t < u) : s ++ t < s ++ u := by
  rw [String.lt_iff, String.toList_append, String.toList_append]
  exact List.append_left_lt (String.lt_iff.mp h)

namespace Precedes

variable {s t u v : String}

theorem lt_append (h : Precedes s t) (u v : String) : s ++ u < t ++ v := by
  have hlength : s.toList.length = t.toList.length := by
    rw [String.length_toList, String.length_toList, h.length]
  rw [String.lt_iff, String.toList_append, String.toList_append]
  exact append_lt_append_of_lt hlength (String.lt_iff.mp h.lt) u.toList v.toList

theorem append (h : Precedes s t) (hlength : u.length = v.length) : Precedes (s ++ u) (t ++ v) := by
  refine ⟨?_, h.lt_append u v⟩
  rw [String.length_append, String.length_append, h.length, hlength]

theorem append_left (s : String) (h : Precedes t u) : Precedes (s ++ t) (s ++ u) := by
  refine ⟨?_, string_append_left_lt s h.lt⟩
  rw [String.length_append, String.length_append, h.length]

end Precedes

/-! ## Numbers -/

@[simp] theorem length_digits (width n : Nat) : (digits width n).length = width := by
  induction width generalizing n with
  | zero => rfl
  | succ width ih => simp [digits, ih]

theorem digits_zero (width : Nat) : digits width 0 = List.replicate width '0' := by
  induction width with
  | zero => rfl
  | succ width ih =>
      rw [digits, Nat.zero_div, ih, List.replicate_succ']
      rfl

theorem width_pos {width n : Nat} (hn : 0 < n) (h : n < 10 ^ width) : 0 < width := by
  rcases Nat.eq_zero_or_pos width with rfl | hpos
  · rw [Nat.pow_zero] at h
    omega
  · exact hpos

theorem toList_padded {width n : Nat} (hwidth : 0 < width) (h : n < 10 ^ width) :
    (padded width n).toList = digits width n := by
  have hpadded (w k : Nat) : (padded w k).toList =
      List.replicate (w - (Nat.toDigits 10 k).length) '0' ++ Nat.toDigits 10 k := by
    simp [padded]
  induction width generalizing n with
  | zero => cases hwidth
  | succ width ih =>
      rw [hpadded, digits]
      by_cases hsmall : n < 10
      · rw [Nat.toDigits_of_lt_base hsmall, Nat.div_eq_of_lt hsmall, Nat.mod_eq_of_lt hsmall, digits_zero]
        rfl
      · have hdiv : n / 10 < 10 ^ width := by
          rw [Nat.pow_succ] at h
          omega
        have hpositive : 0 < width := width_pos (by omega) hdiv
        rw [Nat.toDigits_of_base_le (by decide) (Nat.le_of_not_lt hsmall), List.length_append,
          List.length_singleton, Nat.add_sub_add_right, ← ih hpositive hdiv, hpadded,
          List.append_assoc]

theorem length_padded {width n : Nat} (hwidth : 0 < width) (h : n < 10 ^ width) :
    (padded width n).length = width := by
  rw [← String.length_toList, toList_padded hwidth h, length_digits]

theorem digitChar_lt {a b : Nat} (h : a < b) (hb : b < 10) : Nat.digitChar a < Nat.digitChar b := by
  have ha := Nat.toNat_digitChar_of_lt_ten (Nat.lt_trans h hb)
  have hb := Nat.toNat_digitChar_of_lt_ten hb
  change (Nat.digitChar a).toNat < (Nat.digitChar b).toNat
  omega

theorem digits_lt {width n m : Nat} (h : n < m) (hm : m < 10 ^ width) :
    digits width n < digits width m := by
  induction width generalizing n m with
  | zero =>
      rw [Nat.pow_zero] at hm
      omega
  | succ width ih =>
      have hdiv : m / 10 < 10 ^ width := by
        rw [Nat.pow_succ] at hm
        omega
      rw [digits, digits]
      rcases Nat.lt_or_eq_of_le (Nat.div_le_div_right (c := 10) (Nat.le_of_lt h)) with hfront | hsame
      · exact append_lt_append_of_lt (by rw [length_digits, length_digits]) (ih hfront hdiv) _ _
      · have hlast : n % 10 < m % 10 := by omega
        have hchar := digitChar_lt hlast (Nat.mod_lt m (by decide))
        rw [hsame]
        exact List.append_left_lt (List.cons_lt_cons_iff.mpr (.inl hchar))

theorem precedes_padded {width n m : Nat} (h : n < m) (hm : m < 10 ^ width) :
    Precedes (padded width n) (padded width m) := by
  have hwidth : 0 < width := width_pos (by omega) hm
  have hn := Nat.lt_trans h hm
  refine ⟨?_, ?_⟩
  · rw [length_padded hwidth hn, length_padded hwidth hm]
  · rw [String.lt_iff, toList_padded hwidth hn, toList_padded hwidth hm]
    exact digits_lt h hm

theorem length_padded_eq {width n m : Nat} (hwidth : 0 < width) (hn : n < 10 ^ width)
    (hm : m < 10 ^ width) : (padded width n).length = (padded width m).length := by
  rw [length_padded hwidth hn, length_padded hwidth hm]

theorem precedes_fields {width : Nat} {mark : String} {a b c a' b' c' : Nat}
    (h : a < a' ∨ a = a' ∧ (b < b' ∨ b = b' ∧ c < c')) (ha : a' < 10 ^ width) (hb : b < 100)
    (hb' : b' < 100) (hc : c < 100) (hc' : c' < 100) :
    Precedes (fields width mark a b c) (fields width mark a' b' c') := by
  have hmiddle : (padded 2 b).length = (padded 2 b').length := length_padded_eq (by decide) hb hb'
  have hlast : (padded 2 c).length = (padded 2 c').length := length_padded_eq (by decide) hc hc'
  have hthird : (mark ++ padded 2 c).length = (mark ++ padded 2 c').length := by
    rw [String.length_append, String.length_append, hlast]
  have hsecond : (mark ++ (padded 2 b ++ (mark ++ padded 2 c))).length =
      (mark ++ (padded 2 b' ++ (mark ++ padded 2 c'))).length := by
    simp only [String.length_append, hmiddle, hlast]
  unfold fields
  rcases h with hlt | ⟨rfl, hlt | ⟨rfl, hlt⟩⟩
  · exact (precedes_padded hlt ha).append hsecond
  · have hfield : Precedes (padded 2 b) (padded 2 b') := precedes_padded hlt hb'
    exact ((hfield.append hthird).append_left mark).append_left _
  · have hfield : Precedes (padded 2 c) (padded 2 c') := precedes_padded hlt hc'
    exact (((hfield.append_left mark).append_left _).append_left mark).append_left _

/-! ## Dates -/

theorem Date.text_eq (d : Date) : d.text = fields 4 "-" d.year.toNat d.month d.day := by
  simp only [Date.text, fields, String.append_assoc]

theorem Date.precedes_text {a b : Date} (h : a.Before b) (ha : a.Fits) (hb : b.Fits) :
    Precedes a.text b.text := by
  have hnonneg := ha.nonneg
  have hyear := hb.year
  have hfields : a.year.toNat < b.year.toNat ∨ a.year.toNat = b.year.toNat ∧
      (a.month < b.month ∨ a.month = b.month ∧ a.day < b.day) := by
    unfold Before at h
    omega
  rw [Date.text_eq, Date.text_eq]
  exact precedes_fields hfields (by omega) ha.month hb.month ha.day hb.day

theorem Date.fits_ofDays {days : Int} (hfirst : 0 ≤ days) (hlast : days ≤ 2932896) :
    (Date.ofDays days).Fits := by
  obtain ⟨hlow, hhigh⟩ := Date.year_ofDays hfirst hlast
  obtain ⟨_, _, hmonth⟩ := Date.month_ofDays days
  obtain ⟨_, hday⟩ := Date.day_ofDays days
  exact ⟨by omega, hhigh, by omega, by omega⟩

namespace Instant

/-! ## Times of day -/

theorem precedes_clockText {s t : Nat} (h : s < t) (ht : t < 86400) :
    Precedes (clockText s) (clockText t) := by
  have hfields : s / 3600 < t / 3600 ∨ s / 3600 = t / 3600 ∧
      (s / 60 % 60 < t / 60 % 60 ∨ s / 60 % 60 = t / 60 % 60 ∧ s % 60 < t % 60) := by
    omega
  exact precedes_fields hfields (by omega) (by omega) (by omega) (by omega) (by omega)

/-- No fraction comes before any fraction, for the plus sign comes before the point. -/
theorem fractionText_lt {s t : Nat} (h : s < t) (ht : t < 1000000) :
    fractionText s ++ "+00:00" < fractionText t ++ "+00:00" := by
  have hnonzero : t ≠ 0 := by omega
  unfold fractionText
  rw [if_neg hnonzero]
  by_cases hzero : s = 0
  · rw [if_pos hzero, String.lt_iff]
    simp only [String.toList_append]
    exact List.cons_lt_cons_iff.mpr (.inl (by decide))
  · rw [if_neg hzero]
    exact ((precedes_padded h (by omega)).append_left ".").lt_append _ _

/-! ## Instants -/

theorem text_eq (t : Instant) :
    t.text = (Date.ofDays t.day).text ++
      ("T" ++ (clockText t.second ++ (fractionText t.fraction ++ "+00:00"))) := by
  simp only [text, timeText, microsPerDay, day, second, fraction, clockText, fields, fractionText,
    Int.fdiv_eq_ediv_of_nonneg _ (show (0 : Int) ≤ 86400000000 by decide),
    Int.fmod_eq_emod_of_nonneg _ (show (0 : Int) ≤ 86400000000 by decide), String.append_assoc]
  rfl

theorem InEra.fits {t : Instant} (h : t.InEra) : (Date.ofDays t.day).Fits := by
  obtain ⟨hfirst, hlast⟩ := h
  apply Date.fits_ofDays
  · unfold day
    omega
  · unfold day
    omega

/-- A later moment differs first in the day, or in the second of the day, or in the fraction. -/
theorem later_parts {s t : Instant} (h : s.micros < t.micros) :
    s.day < t.day ∨ s.day = t.day ∧
      (s.second < t.second ∨ s.second = t.second ∧ s.fraction < t.fraction) := by
  unfold day second fraction
  omega

theorem second_lt (t : Instant) : t.second < 86400 := by
  unfold second
  omega

theorem text_lt_text {s t : Instant} (hs : s.InEra) (ht : t.InEra) (h : s.micros < t.micros) :
    s.text < t.text := by
  rw [text_eq, text_eq]
  rcases later_parts h with hday | ⟨hday, hsecond | ⟨hsecond, hfraction⟩⟩
  · exact (Date.precedes_text (Date.ofDays_before hday) hs.fits ht.fits).lt_append _ _
  · rw [hday]
    have hclock := (precedes_clockText hsecond (second_lt t)).lt_append
      (fractionText s.fraction ++ "+00:00") (fractionText t.fraction ++ "+00:00")
    exact string_append_left_lt _ (string_append_left_lt "T" hclock)
  · rw [hday, hsecond]
    have hrest := fractionText_lt hfraction (Nat.mod_lt _ (by decide))
    exact string_append_left_lt _ (string_append_left_lt "T" (string_append_left_lt _ hrest))

/-- From 1970 to the end of 9999, texts are in the order of the moments. -/
theorem text_lt_text_iff {s t : Instant} (hs : s.InEra) (ht : t.InEra) :
    s.text < t.text ↔ s.micros < t.micros := by
  refine ⟨fun h => ?_, text_lt_text hs ht⟩
  rcases Int.lt_trichotomy s.micros t.micros with hlt | heq | hgt
  · exact hlt
  · have hsame : s = t := by
      cases s
      cases t
      exact congrArg Instant.mk heq
    rw [hsame] at h
    exact absurd h (String.lt_irrefl _)
  · exact absurd (text_lt_text ht hs hgt) (String.lt_asymm h)

theorem text_le_text {s t : Instant} (hs : s.InEra) (ht : t.InEra) (h : s.micros ≤ t.micros) :
    s.text ≤ t.text := by
  intro hlt
  have hbefore := (text_lt_text_iff ht hs).mp hlt
  omega

end Instant

end EdgeMapper
