import Mathlib.Data.Nat.Digits.Lemmas
import TodLang.Proofs.Token.Scanned
/-!
Number literals. A number reaches as far as the characters of its form do. Without its underscores
it is an integer if it is made of digits of its base and fits the integers of the language, and a
decimal if it has no base mark and just one point; every other run is an error that shows the run.
The main statement says this of the scanner (`scanPiece_number`).
-/

namespace TodLang

/-! ### Digits -/

/-- The digits of a base up to sixteen: from `0` to `9` and then the letters from `a` on, small or
capital. -/
def IsDigitOf (base : Nat) (c : Char) (weight : Nat) : Prop :=
  weight < base ∧ c.toLower = Nat.digitChar weight
  deriving Decidable

/-- One or more digits of a base spell a number. -/
def Spells (base : Nat) (digits : List Char) (number : Nat) : Prop :=
  digits ≠ [] ∧ ∃ weights, List.Forall₂ (IsDigitOf base) digits weights ∧
    Nat.ofDigits base weights.reverse = number

theorem toNat_lt_of_digitWeight? {c : Char} {weight : Nat} (h : digitWeight? c = some weight) :
    c.toNat < 128 := by
  have hle : c.toNat ≤ 122 := by
    unfold digitWeight? at h
    split_ifs at h with hdigit hlower hupper
    · exact Nat.le_trans (toNat_le_of_isDigit hdigit) (by decide)
    · exact toNat_le_of_isAlpha (Bool.or_eq_true_iff.2 (.inr hlower))
    · exact toNat_le_of_isAlpha (Bool.or_eq_true_iff.2 (.inl hupper))
  omega

theorem toNat_lt_of_toLower {c : Char} {weight : Nat} (hweight : weight < 16)
    (h : c.toLower = Nat.digitChar weight) : c.toNat < 128 := by
  have hchar : ∀ w < 16, (Nat.digitChar w).toNat < 128 := by decide
  have hdigit := hchar weight hweight
  by_cases hupper : 'A'.val ≤ c.val ∧ c.val ≤ 'Z'.val
  · exact Nat.lt_of_le_of_lt (UInt32.le_iff_toNat_le.1 hupper.2) (by decide)
  · have hsame : c.toLower = c := dif_neg hupper
    rwa [← h, hsame] at hdigit

/-- A character is worth what it is worth as a digit: both sides are about ASCII alone. -/
theorem digitWeight?_eq_some_iff {c : Char} {weight : Nat} (hweight : weight < 16) :
    digitWeight? c = some weight ↔ c.toLower = Nat.digitChar weight := by
  have hall : ∀ n < 128, ∀ w < 16, digitWeight? (Char.ofNat n) = some w ↔
      (Char.ofNat n).toLower = Nat.digitChar w := by
    decide +kernel
  have hc : c.toNat < 128 → (digitWeight? c = some weight ↔ c.toLower = Nat.digitChar weight) := by
    intro hlt
    simpa only [Char.ofNat_toNat] using hall c.toNat hlt weight hweight
  exact ⟨fun h => (hc (toNat_lt_of_digitWeight? h)).1 h,
    fun h => (hc (toNat_lt_of_toLower hweight h)).2 h⟩

theorem appendDigit?_eq_some_iff {base number next : Nat} (hbase : base ≤ 16) {c : Char} :
    appendDigit? base number c = some next ↔
      ∃ weight, IsDigitOf base c weight ∧ number * base + weight = next := by
  constructor
  · intro h
    unfold appendDigit? at h
    split at h
    · next weight hweight =>
      split_ifs at h with hlt
      cases h
      exact ⟨weight, ⟨hlt, (digitWeight?_eq_some_iff (by omega)).1 hweight⟩, rfl⟩
    · cases h
  · rintro ⟨weight, ⟨hlt, hc⟩, rfl⟩
    rw [appendDigit?, (digitWeight?_eq_some_iff (by omega)).2 hc]
    exact if_pos hlt

theorem foldlM_appendDigit?_eq_some_iff {base : Nat} (hbase : base ≤ 16) {digits : List Char}
    {number result : Nat} :
    digits.foldlM (appendDigit? base) number = some result ↔
      ∃ weights, List.Forall₂ (IsDigitOf base) digits weights ∧
        Nat.ofDigits base weights.reverse + base ^ weights.length * number = result := by
  induction digits generalizing number with
  | nil => simp [eq_comm]
  | cons c digits ih =>
    rw [List.foldlM_cons, Option.bind_eq_bind, Option.bind_eq_some_iff]
    constructor
    · rintro ⟨next, hnext, h⟩
      obtain ⟨weight, hc, rfl⟩ := (appendDigit?_eq_some_iff hbase).1 hnext
      obtain ⟨weights, hdigits, rfl⟩ := ih.1 h
      refine ⟨weight :: weights, .cons hc hdigits, ?_⟩
      rw [Nat.ofDigits_reverse_cons, List.length_cons]
      ring
    · rintro ⟨_ | ⟨weight, weights⟩, hall, rfl⟩
      · cases hall
      · obtain ⟨hc, hdigits⟩ := List.forall₂_cons.1 hall
        refine ⟨_, (appendDigit?_eq_some_iff hbase).2 ⟨weight, hc, rfl⟩,
          ih.2 ⟨weights, hdigits, ?_⟩⟩
        rw [Nat.ofDigits_reverse_cons, List.length_cons]
        ring

/-- The value of some digits is the number that they spell. -/
theorem naturalValue?_eq_some_iff {base : Nat} (hbase : base ≤ 16) {digits : List Char}
    {number : Nat} : naturalValue? base digits = some number ↔ Spells base digits number := by
  unfold naturalValue? Spells
  cases digits with
  | nil => simp
  | cons c digits =>
    rw [List.isEmpty_cons, if_neg Bool.false_ne_true, foldlM_appendDigit?_eq_some_iff hbase]
    simp

theorem integerValue?_eq_some_iff {base : Nat} (hbase : base ≤ 16) {digits : List Char}
    {value : Value} :
    integerValue? base digits = some value ↔
      ∃ number, Spells base digits number ∧ number ≤ 2 ^ 63 - 1 ∧ value = .integer number := by
  have hlimit : ∀ number, number < integerLimit ↔ number ≤ 2 ^ 63 - 1 := by
    intro number
    have : integerLimit = 2 ^ 63 := rfl
    omega
  unfold integerValue?
  constructor
  · intro h
    split at h
    · next number hnumber =>
      split_ifs at h with hlt
      cases h
      exact ⟨number, (naturalValue?_eq_some_iff hbase).1 hnumber, (hlimit number).1 hlt, rfl⟩
    · cases h
  · rintro ⟨number, hspells, hle, rfl⟩
    rw [(naturalValue?_eq_some_iff hbase).2 hspells]
    exact if_pos ((hlimit number).2 hle)

theorem Spells.isDigitOf {base number : Nat} {digits : List Char} (h : Spells base digits number) :
    ∀ c ∈ digits, ∃ weight, IsDigitOf base c weight := by
  obtain ⟨-, weights, hall, -⟩ := h
  intro c hc
  induction hall with
  | nil => cases hc
  | @cons d weight digits weights hd _ ih =>
    rcases List.mem_cons.1 hc with rfl | hc
    · exact ⟨weight, hd⟩
    · exact ih hc

/-- A point is no digit of any base. -/
theorem Spells.point_notMem {base number : Nat} (hbase : base ≤ 16) {digits : List Char}
    (h : Spells base digits number) : '.' ∉ digits := by
  intro hpoint
  obtain ⟨weight, hlt, hc⟩ := h.isDigitOf '.' hpoint
  have hnone : ∀ w < 16, '.'.toLower ≠ Nat.digitChar w := by decide
  exact hnone weight (by omega) hc

theorem exists_spells {digits : List Char} (hne : digits ≠ [])
    (hall : ∀ c ∈ digits, c.isDigit = true) : ∃ number, Spells 10 digits number := by
  have hweights : ∃ weights, List.Forall₂ (IsDigitOf 10) digits weights := by
    clear hne
    induction digits with
    | nil => exact ⟨[], .nil⟩
    | cons c digits ih =>
      obtain ⟨hc, hall⟩ := List.forall_mem_cons.1 hall
      obtain ⟨weights, hweights⟩ := ih hall
      have hle := toNat_le_of_isDigit hc
      have hweight : digitWeight? c = some (c.toNat - 48) := if_pos hc
      exact ⟨_ :: weights,
        .cons ⟨by omega, (digitWeight?_eq_some_iff (by omega)).1 hweight⟩ hweights⟩
  obtain ⟨weights, hweights⟩ := hweights
  exact ⟨_, hne, weights, hweights, rfl⟩

/-- The number with one point is made of the digits on both sides of it. -/
theorem decimalValue?_append {whole : List Char} (hwhole : '.' ∉ whole) (fraction : List Char) :
    decimalValue? (whole ++ '.' :: fraction) =
      (naturalValue? 10 (whole ++ fraction)).map fun number =>
        .decimal (Binary64.ofDecimal number fraction.length) := by
  have hall : ∀ c ∈ whole, decide (c ≠ '.') = true := by
    intro c hc
    rw [decide_eq_true_iff]
    rintro rfl
    exact hwhole hc
  rw [decimalValue?, List.takeWhile_append_of_pos hall, List.dropWhile_append_of_pos hall]
  simp

/-! ### The run of a number -/

/-- The marks that announce a base. -/
def baseMarks : List (List Char × Nat) :=
  [(['0', 'x'], 16), (['0', 'X'], 16), (['0', 'b'], 2), (['0', 'B'], 2)]

theorem baseMark?_eq_some_iff {text : List Char} {base : Nat} :
    baseMark? text = some base ↔ ∃ mark tail, (mark, base) ∈ baseMarks ∧ text = mark ++ tail := by
  constructor
  · intro h
    unfold baseMark? at h
    split at h
    case h_5 => cases h
    all_goals
      cases h
      refine ⟨['0', _], _, ?_, rfl⟩
      decide
  · rintro ⟨mark, tail, hmark, rfl⟩
    simp only [baseMarks, List.mem_cons, Prod.mk.injEq, List.not_mem_nil, or_false] at hmark
    rcases hmark with ⟨rfl, rfl⟩ | ⟨rfl, rfl⟩ | ⟨rfl, rfl⟩ | ⟨rfl, rfl⟩ <;> rfl

/-- The parts of a number in front of some text: the mark of its base, which is empty if it has
none, and the characters behind the mark. -/
structure NumberParts where
  mark : List Char
  base : Nat
  body : List Char
  after : List Char

namespace NumberParts

variable {p : NumberParts} {text : List Char}

/-- The characters of the number. -/
def run (p : NumberParts) : List Char :=
  p.mark ++ p.body

/-- What is left of the body without underscores. -/
def digits (p : NumberParts) : List Char :=
  p.body.filter (· ≠ '_')

/-- The number at the head of a text, as long as its form allows: behind a mark, letters, digits and
underscores, and without one, digits, points and underscores. -/
inductive Heads (text : List Char) (p : NumberParts) : Prop
  | marked (hmark : (p.mark, p.base) ∈ baseMarks) (htext : text = p.mark ++ (p.body ++ p.after))
      (hbody : ∀ c ∈ p.body, c.isAlphanum = true ∨ c = '_')
      (hend : ∀ c ∈ p.after.head?, ¬ (c.isAlphanum = true ∨ c = '_'))
  | plain (hmark : p.mark = []) (hbase : p.base = 10) (htext : text = p.body ++ p.after)
      (hnone : ∀ entry ∈ baseMarks, ¬ entry.1 <+: text)
      (hbody : ∀ c ∈ p.body, c.isDigit = true ∨ c = '.' ∨ c = '_')
      (hend : ∀ c ∈ p.after.head?, ¬ (c.isDigit = true ∨ c = '.' ∨ c = '_'))

/-- Digits of the base, no point, and a number that fits the integers of the language. -/
def IsInteger (p : NumberParts) (number : Nat) : Prop :=
  '.' ∉ p.body ∧ Spells p.base p.digits number ∧ number ≤ 2 ^ 63 - 1

/-- No mark and one point. -/
def IsDecimal (p : NumberParts) : Prop :=
  p.mark = [] ∧ p.body.count '.' = 1

/-- The number of the format next to what the digits and the place of the point say. -/
def IsDecimalValue (p : NumberParts) (value : Binary64) : Prop :=
  ∃ whole fraction number, p.digits = whole ++ '.' :: fraction ∧
    Spells 10 (whole ++ fraction) number ∧ value = Binary64.ofDecimal number fraction.length

/-- What an error says that the number was read as. -/
def form (p : NumberParts) : NumberForm :=
  if p.mark = [] ∧ '.' ∈ p.body then .decimal else .integer

theorem isBasedPart_iff {c : Char} : isBasedPart c = true ↔ c.isAlphanum = true ∨ c = '_' := by
  simp [isBasedPart]

theorem isDecimalPart_iff {c : Char} :
    isDecimalPart c = true ↔ c.isDigit = true ∨ c = '.' ∨ c = '_' := by
  simp [isDecimalPart, or_assoc]

theorem exists_heads (text : List Char) : ∃ p : NumberParts, p.Heads text := by
  cases hbase : baseMark? text with
  | some base =>
    obtain ⟨mark, tail, hmark, rfl⟩ := baseMark?_eq_some_iff.1 hbase
    refine ⟨⟨mark, base, tail.takeWhile isBasedPart, tail.dropWhile isBasedPart⟩,
      .marked hmark ?_ ?_ ?_⟩
    · simp only [List.takeWhile_append_dropWhile]
    · exact fun c hc => isBasedPart_iff.1 (List.mem_takeWhile_imp hc)
    · intro c hc hpart
      have hstop := List.head?_dropWhile_not isBasedPart tail
      rw [Option.mem_def.1 hc] at hstop
      simp [isBasedPart_iff.2 hpart] at hstop
  | none =>
    refine ⟨⟨[], 10, text.takeWhile isDecimalPart, text.dropWhile isDecimalPart⟩,
      .plain rfl rfl ?_ ?_ ?_ ?_⟩
    · simp only [List.takeWhile_append_dropWhile]
    · rintro ⟨mark, base⟩ hmark ⟨tail, rfl⟩
      rw [baseMark?_eq_some_iff.2 ⟨mark, tail, hmark, rfl⟩] at hbase
      cases hbase
    · exact fun c hc => isDecimalPart_iff.1 (List.mem_takeWhile_imp hc)
    · intro c hc hpart
      have hstop := List.head?_dropWhile_not isDecimalPart text
      rw [Option.mem_def.1 hc] at hstop
      simp [isDecimalPart_iff.2 hpart] at hstop

theorem Heads.base_le (h : p.Heads text) : p.base ≤ 16 := by
  cases h with
  | marked hmark =>
    have hall : ∀ entry ∈ baseMarks, entry.2 ≤ 16 := by decide
    exact hall _ hmark
  | plain _ hbase => omega

theorem length_mark {mark : List Char} {base : Nat} (h : (mark, base) ∈ baseMarks) :
    mark.length = 2 := by
  have hall : ∀ entry ∈ baseMarks, entry.1.length = 2 := by decide
  exact hall _ h

theorem mark_ne_nil {mark : List Char} {base : Nat} (h : (mark, base) ∈ baseMarks) : mark ≠ [] := by
  intro hnil
  have hlength := length_mark h
  rw [hnil] at hlength
  cases hlength

/-- No point stands in a number with a mark. -/
theorem Heads.point_notMem (h : p.Heads text) (hmark : p.mark ≠ []) : '.' ∉ p.body := by
  cases h with
  | marked _ _ hbody =>
    intro hpoint
    rcases hbody '.' hpoint with halnum | hline
    · cases halnum
    · cases hline
  | plain hnone => exact absurd hnone hmark

/-- The reader of numbers takes the longest run. -/
theorem Heads.splitNumber_eq (h : p.Heads text) : splitNumber text = (p.run, p.after) := by
  cases h with
  | marked hmark htext hbody hend =>
    have hbase := baseMark?_eq_some_iff.2 ⟨p.mark, p.body ++ p.after, hmark, htext⟩
    have hlength := length_mark hmark
    have hrun : ∀ c ∈ p.body, isBasedPart c = true := fun c hc => isBasedPart_iff.2 (hbody c hc)
    have hstop : ∀ c ∈ p.after.head?, isBasedPart c = false := fun c hc =>
      eq_false_of_ne_true fun hpart => hend c hc (isBasedPart_iff.1 hpart)
    obtain ⟨htake, hdrop⟩ := span_append hrun hstop
    rw [splitNumber_of_isSome (by rw [hbase]; rfl), htext, List.take_left' hlength,
      List.drop_left' hlength, htake, hdrop, run]
  | plain hmark _ htext hnone hbody hend =>
    have hbase : ¬ (baseMark? text).isSome = true := by
      intro hsome
      obtain ⟨base, hbase⟩ := Option.isSome_iff_exists.1 hsome
      obtain ⟨mark, tail, hmem, htail⟩ := baseMark?_eq_some_iff.1 hbase
      exact hnone _ hmem ⟨tail, htail.symm⟩
    have hrun : ∀ c ∈ p.body, isDecimalPart c = true := fun c hc => isDecimalPart_iff.2 (hbody c hc)
    have hstop : ∀ c ∈ p.after.head?, isDecimalPart c = false := fun c hc =>
      eq_false_of_ne_true fun hpart => hend c hc (isDecimalPart_iff.1 hpart)
    obtain ⟨htake, hdrop⟩ := span_append hrun hstop
    rw [splitNumber_of_not_isSome hbase, htext, htake, hdrop, run, hmark, List.nil_append]

theorem Heads.baseMark?_run (h : p.Heads text) :
    baseMark? p.run = if p.mark = [] then none else some p.base := by
  cases h with
  | marked hmark =>
    rw [if_neg (mark_ne_nil hmark)]
    exact baseMark?_eq_some_iff.2 ⟨p.mark, p.body, hmark, rfl⟩
  | plain hmark _ htext hnone =>
    rw [if_pos hmark, Option.eq_none_iff_forall_ne_some]
    intro base hbase
    obtain ⟨mark, tail, hmem, htail⟩ := baseMark?_eq_some_iff.1 hbase
    refine hnone _ hmem ⟨tail ++ p.after, ?_⟩
    rw [htext, ← List.append_assoc, ← htail, run, hmark, List.nil_append]

theorem Heads.numberForm_run (h : p.Heads text) : numberForm p.run = p.form := by
  rw [numberForm, h.baseMark?_run, form]
  by_cases hmark : p.mark = []
  · simp [hmark, run]
  · simp [hmark]

/-- What the value of a number is made from. -/
theorem Heads.numberValue?_run (h : p.Heads text) :
    numberValue? p.run =
      if p.form = .decimal then decimalValue? p.digits else integerValue? p.base p.digits := by
  rw [numberValue?, h.baseMark?_run, h.numberForm_run]
  cases h with
  | marked hmark =>
    have hdrop : p.run.drop 2 = p.body := List.drop_left' (length_mark hmark)
    simp [mark_ne_nil hmark, form, hdrop, digits]
  | plain hmark hbase =>
    rw [if_pos hmark]
    cases hform : p.form with
    | integer => simp [run, hmark, digits, hbase]
    | decimal => simp [run, hmark, digits]

theorem form_eq_decimal_iff : p.form = .decimal ↔ p.mark = [] ∧ '.' ∈ p.body := by
  simp [form]

theorem count_digits : p.digits.count '.' = p.body.count '.' :=
  List.count_filter (by decide)

theorem IsDecimal.form_eq (h : p.IsDecimal) : p.form = .decimal := by
  rw [form_eq_decimal_iff]
  exact ⟨h.1, List.count_pos_iff.1 (by rw [h.2]; exact Nat.one_pos)⟩

theorem Heads.integerValue?_eq_some_iff (h : p.Heads text) (hform : p.form = .integer)
    {value : Value} :
    integerValue? p.base p.digits = some value ↔
      ∃ number, p.IsInteger number ∧ value = .integer number := by
  have hpoint : '.' ∉ p.body := by
    by_cases hmark : p.mark = []
    · intro hpoint
      rw [form_eq_decimal_iff.2 ⟨hmark, hpoint⟩] at hform
      cases hform
    · exact h.point_notMem hmark
  rw [TodLang.integerValue?_eq_some_iff h.base_le]
  constructor
  · rintro ⟨number, hspells, hle, rfl⟩
    exact ⟨number, ⟨hpoint, hspells, hle⟩, rfl⟩
  · rintro ⟨number, ⟨-, hspells, hle⟩, rfl⟩
    exact ⟨number, hspells, hle, rfl⟩

/-- The digits of a number without a mark begin with the digit that the number begins with. -/
theorem Heads.exists_digits {c : Char} {rest : List Char} (h : p.Heads (c :: rest))
    (hc : c.isDigit = true) (hmark : p.mark = []) :
    ∃ tail, p.digits = c :: tail ∧ ∀ d ∈ p.digits, d.isDigit = true ∨ d = '.' := by
  cases h with
  | marked hmem => exact absurd hmark (mark_ne_nil hmem)
  | plain _ _ htext _ hbody hend =>
    cases hparts : p.body with
    | nil =>
      rw [hparts, List.nil_append] at htext
      exact absurd (.inl hc) (hend c (by simp [← htext]))
    | cons d body =>
      rw [hparts] at htext hbody
      obtain ⟨rfl, -⟩ := List.cons.inj htext
      have hline : c ≠ '_' := by
        rintro rfl
        cases hc
      refine ⟨body.filter (· ≠ '_'), by simp [digits, hparts, hline], ?_⟩
      intro d hd
      rw [digits, hparts, List.mem_filter, decide_eq_true_iff] at hd
      rcases hbody d hd.1 with hdigit | hpoint | hunderscore
      · exact .inl hdigit
      · exact .inr hpoint
      · exact absurd hunderscore hd.2

/-- A number with a point and without a mark has a value if it has no other point. -/
theorem Heads.decimalValue? {c : Char} {rest : List Char} (h : p.Heads (c :: rest))
    (hc : c.isDigit = true) (hform : p.form = .decimal) :
    (p.IsDecimal ∧ ∃ value, p.IsDecimalValue value ∧
        TodLang.decimalValue? p.digits = some (.decimal value)) ∨
      ¬ p.IsDecimal ∧ TodLang.decimalValue? p.digits = none := by
  obtain ⟨hmark, hpoint⟩ := form_eq_decimal_iff.1 hform
  obtain ⟨tail, hhead, hparts⟩ := h.exists_digits hc hmark
  have hmem : '.' ∈ p.digits := by
    rw [← List.count_pos_iff, count_digits, List.count_pos_iff]
    exact hpoint
  obtain ⟨whole, fraction, hsplit, hwhole⟩ := List.eq_append_cons_of_mem hmem
  rw [hsplit, decimalValue?_append hwhole]
  have hcount : p.body.count '.' = fraction.count '.' + 1 := by
    rw [← count_digits, hsplit, List.count_append, List.count_eq_zero.2 hwhole,
      List.count_cons_self, Nat.zero_add]
  by_cases hfraction : '.' ∈ fraction
  · refine .inr ⟨?_, ?_⟩
    · intro hdecimal
      have := List.count_pos_iff.2 hfraction
      have := hdecimal.2
      omega
    · rw [Option.map_eq_none_iff, Option.eq_none_iff_forall_ne_some]
      intro number hnumber
      have hspells := (naturalValue?_eq_some_iff (by decide)).1 hnumber
      exact hspells.point_notMem (by decide) (List.mem_append_right whole hfraction)
  · refine .inl ⟨⟨hmark, ?_⟩, ?_⟩
    · rw [hcount, List.count_eq_zero.2 hfraction]
    · have hne : whole ++ fraction ≠ [] := by
        intro hnil
        obtain ⟨rfl, rfl⟩ := List.append_eq_nil_iff.1 hnil
        rw [hsplit] at hhead
        obtain ⟨rfl, -⟩ := List.cons.inj hhead
        cases hc
      have hall : ∀ d ∈ whole ++ fraction, d.isDigit = true := by
        intro d hd
        have hdigits : d ∈ p.digits := by
          rw [hsplit]
          simp only [List.mem_append, List.mem_cons] at hd ⊢
          tauto
        rcases hparts d hdigits with hdigit | rfl
        · exact hdigit
        · exact absurd hd (by simp [hwhole, hfraction])
      obtain ⟨number, hspells⟩ := exists_spells hne hall
      refine ⟨_, ⟨whole, fraction, number, hsplit, hspells, rfl⟩, ?_⟩
      rw [(naturalValue?_eq_some_iff (by decide)).2 hspells]
      rfl

end NumberParts

/-! ### The scanner at a digit -/

/-- What the scanner makes of a number at a place. -/
structure ScansNumber (file : Nat) (place : Position) (p : NumberParts)
    (outcome : Except LexicalError Scanned) : Prop where
  /-- The token of an integer, with the number that its digits spell, exactly if it is one. -/
  integer (number : Int) :
    outcome = .ok (.lexeme file place .integer (some (.integer number)) p.run p.after) ↔
      ∃ n : Nat, p.IsInteger n ∧ number = n
  /-- The token of a decimal exactly if it is one. -/
  decimal :
    (∃ value,
      outcome = .ok (.lexeme file place .decimal (some (.decimal value)) p.run p.after)) ↔
      p.IsDecimal
  decimalValue (value : Binary64) :
    outcome = .ok (.lexeme file place .decimal (some (.decimal value)) p.run p.after) →
      p.IsDecimalValue value
  noOther (scanned : Scanned) : outcome = .ok scanned →
    (∃ number, scanned =
      .lexeme file place .integer (some (.integer number)) p.run p.after) ∨
    ∃ value, scanned = .lexeme file place .decimal (some (.decimal value)) p.run p.after
  /-- An error at the whole run exactly if it is neither. -/
  unreadable (e : LexicalError) : outcome = .error e ↔
    (∀ n, ¬ p.IsInteger n) ∧ ¬ p.IsDecimal ∧
      e = ⟨.unreadableNumber p.run p.form, Span.between file place (place.advance p.run)⟩
  /-- The error shows the run. -/
  shown (e : LexicalError) : outcome = .error e → p.run <:+: e.message.toList

theorem infix_toList (before behind : String) (run : List Char) :
    run <:+: (before ++ String.ofList run ++ behind).toList := by
  rw [String.toList_append, String.toList_append, String.toList_ofList]
  exact List.infix_append _ run _

theorem run_infix_message (run : List Char) (form : NumberForm) :
    run <:+: (LexicalFault.unreadableNumber run form).message.toList := by
  have h := infix_toList "value \""
    ("\" could not be converted to real value [" ++ form.label ++ "]") run
  rw [← String.append_assoc, ← String.append_assoc] at h
  exact h

namespace NumberParts

variable {p : NumberParts} {c : Char} {rest : List Char}

/-- The value of what the parts of a number spell: an integer, a decimal, or none. -/
theorem Heads.numberValue?_cases (h : p.Heads (c :: rest)) (hc : c.isDigit = true) :
    (∃ n : Nat, numberValue? p.run = some (.integer n) ∧ p.form = .integer ∧
        (∀ m, p.IsInteger m ↔ m = n) ∧ ¬ p.IsDecimal) ∨
      (∃ value, numberValue? p.run = some (.decimal value) ∧ p.form = .decimal ∧
        (∀ m, ¬ p.IsInteger m) ∧ p.IsDecimal ∧ p.IsDecimalValue value) ∨
      numberValue? p.run = none ∧ (∀ m, ¬ p.IsInteger m) ∧ ¬ p.IsDecimal := by
  rw [h.numberValue?_run]
  cases hform : p.form with
  | integer =>
    have hdecimal : ¬ p.IsDecimal := fun hdecimal => by
      rw [hdecimal.form_eq] at hform
      cases hform
    rw [if_neg (by decide)]
    cases hvalue : integerValue? p.base p.digits with
    | some value =>
      obtain ⟨n, hn, rfl⟩ := (h.integerValue?_eq_some_iff hform).1 hvalue
      refine .inl ⟨n, rfl, rfl, fun m => ⟨fun hm => ?_, fun hm => hm ▸ hn⟩, hdecimal⟩
      have hsame := (h.integerValue?_eq_some_iff hform).2 ⟨m, hm, rfl⟩
      rw [hvalue] at hsame
      simpa using hsame.symm
    | none =>
      refine .inr (.inr ⟨rfl, fun m hm => ?_, hdecimal⟩)
      rw [(h.integerValue?_eq_some_iff hform).2 ⟨m, hm, rfl⟩] at hvalue
      cases hvalue
  | decimal =>
    have hinteger : ∀ m, ¬ p.IsInteger m := fun m hm =>
      hm.1 (form_eq_decimal_iff.1 hform).2
    rw [if_pos rfl]
    rcases h.decimalValue? hc hform with ⟨hdecimal, value, hvalue, hread⟩ | ⟨hdecimal, hread⟩
    · exact .inr (.inl ⟨value, hread, rfl, hinteger, hdecimal, hvalue⟩)
    · exact .inr (.inr ⟨hread, hinteger, hdecimal⟩)

/-- What is scanned at a digit, by the value of the number there. -/
theorem Heads.scanPiece_eq (h : p.Heads (c :: rest)) (hc : c.isDigit = true) (hash : Bool)
    (file : Nat) (place : Position) :
    scanPiece hash file place c rest =
      match numberValue? p.run with
      | some value => .ok (.lexeme file place p.form.kind (some value) p.run p.after)
      | none =>
        .error ⟨.unreadableNumber p.run p.form,
          Span.between file place (place.advance p.run)⟩ := by
  rw [scanPiece, readPiece_digit hc, readNumber, h.splitNumber_eq]
  dsimp only
  rw [h.numberForm_run]
  cases numberValue? p.run <;> rfl

end NumberParts

theorem scansNumber {p : NumberParts} {c : Char} {rest : List Char} (h : p.Heads (c :: rest))
    (hc : c.isDigit = true) (hash : Bool) (file : Nat) (place : Position) :
    ScansNumber file place p (scanPiece hash file place c rest) := by
  rw [h.scanPiece_eq hc]
  rcases h.numberValue?_cases hc with ⟨n, hvalue, hform, hinteger, hdecimal⟩ |
    ⟨value, hvalue, hform, hinteger, hdecimal, hisvalue⟩ | ⟨hvalue, hinteger, hdecimal⟩
  · rw [hvalue, hform]
    constructor
    case integer => simp [Scanned.lexeme, NumberForm.kind, hinteger, eq_comm]
    case decimal => simp [Scanned.lexeme, NumberForm.kind, hdecimal]
    case decimalValue => simp [Scanned.lexeme, NumberForm.kind]
    case noOther =>
      rintro scanned ⟨⟩
      exact .inl ⟨n, rfl⟩
    case unreadable => simp [hinteger]
    case shown => exact fun e he => by cases he
  · rw [hvalue, hform]
    constructor
    case integer => simp [Scanned.lexeme, NumberForm.kind, hinteger]
    case decimal => simp [Scanned.lexeme, NumberForm.kind, hdecimal]
    case decimalValue =>
      intro other hother
      simp only [Scanned.lexeme, NumberForm.kind, Except.ok.injEq, Scanned.mk.injEq,
        Option.some.injEq, Token.mk.injEq, Value.decimal.injEq, true_and, and_true] at hother
      exact hother ▸ hisvalue
    case noOther =>
      rintro scanned ⟨⟩
      exact .inr ⟨value, rfl⟩
    case unreadable => simp [hdecimal]
    case shown => exact fun e he => by cases he
  · rw [hvalue]
    constructor
    case integer => simp [hinteger]
    case decimal => simp [hdecimal]
    case decimalValue => exact fun _ hother => by cases hother
    case noOther => exact fun _ hother => by cases hother
    case unreadable => simp [hinteger, hdecimal, eq_comm]
    case shown =>
      rintro e ⟨⟩
      exact run_infix_message p.run p.form

/-- A digit, anywhere in a source, begins a number that reaches as far as its form allows and is
read as its characters say. -/
theorem scanPiece_number {c : Char} (hc : c.isDigit = true) (hash : Bool) (file : Nat)
    (place : Position) (rest : List Char) :
    (∃ p : NumberParts, p.Heads (c :: rest)) ∧
      ∀ p : NumberParts, p.Heads (c :: rest) →
        ScansNumber file place p (scanPiece hash file place c rest) :=
  ⟨NumberParts.exists_heads _, fun _ hp => scansNumber hp hc hash file place⟩

/-- A number with a mark and underscores, small and capital letters as digits, in front of a sign
that could not belong to it. -/
theorem scanPiece_number_marked :
    '0'.isDigit = true ∧
      NumberParts.Heads "0x_1eF.5".toList ⟨['0', 'x'], 16, "_1eF".toList, ".5".toList⟩ ∧
      scanPiece true 0 ⟨3, 1, 4⟩ '0' "x_1eF.5".toList =
        .ok (.lexeme 0 ⟨3, 1, 4⟩ .integer (some (.integer 495)) "0x_1eF".toList ".5".toList) := by
  have hheads : NumberParts.Heads ('0' :: "x_1eF.5".toList)
      ⟨['0', 'x'], 16, "_1eF".toList, ".5".toList⟩ :=
    .marked (by decide) rfl
      (fun c hc => NumberParts.isBasedPart_iff.1 (List.all_eq_true.1 (by decide) c hc)) (by simp)
  have hscans := (scanPiece_number (c := '0') rfl true 0 ⟨3, 1, 4⟩ _).2 _ hheads
  have hdigits : List.Forall₂ (IsDigitOf 16) ['1', 'e', 'F'] [1, 14, 15] :=
    .cons (by decide) (.cons (by decide) (.cons (by decide) .nil))
  exact ⟨rfl, hheads,
    (hscans.integer 495).2 ⟨495, ⟨by decide, ⟨by decide, _, hdigits, rfl⟩, by decide⟩, rfl⟩⟩

/-- The largest integer, and the next number, which is none. -/
example :
    (scanPiece true 0 ⟨0, 1, 1⟩ '9' "223372036854775807".toList).toOption.bind
        (fun first => first.token.bind (·.value)) = some (.integer (2 ^ 63 - 1)) ∧
      scanPiece true 0 ⟨0, 1, 1⟩ '9' "223372036854775808".toList =
        .error ⟨.unreadableNumber "9223372036854775808".toList .integer,
          ⟨0, 0, 19, 1, 1, 1, 20⟩⟩ := by
  decide +kernel

end TodLang
