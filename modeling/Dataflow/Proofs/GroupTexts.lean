import Dataflow.Proofs.Coding
import Mathlib.Data.List.Basic

/-!
# The texts of groups

A numeral (`GroupId.Numeral`) is an optional plus and then digits. Its value written in decimal is
the numeral without its plus and its leading zeros (`GroupId.Numeral.toDigits_value`). A text is
read as a group exactly if it is a numeral before its first point and a numeral behind it, both of
numbers below `2 ^ 32` (`GroupId.parse_eq_ok_iff`). So the text under which a group is kept is read
back, belongs to no other group, and is what all other texts of the group come to once they have
lost their pluses and leading zeros (`GroupId.text_is_key`).
-/

set_option autoImplicit false
set_option relaxedAutoImplicit false

namespace Dataflow.GroupId

/-! ### Digits -/

theorem toNat_of_isDigit {c : Char} (h : c.isDigit) : 48 ≤ c.toNat ∧ c.toNat ≤ 57 := by
  simpa [Char.isDigit, UInt32.le_iff_toNat_le] using h

theorem digitChar_of_isDigit {c : Char} (h : c.isDigit) : Nat.digitChar (c.toNat - 48) = c := by
  have hrange := toNat_of_isDigit h
  refine Char.toNat_inj.mp ?_
  rw [Nat.toNat_digitChar_of_lt_ten (by omega)]
  omega

theorem isDigit_of_digit? {c : Char} {d : Nat} (h : digit? c = some d) : c.isDigit := by
  rw [digit?] at h
  split at h
  · rename_i hrange
    simpa [Char.isDigit, Char.le_def] using hrange
  · cases h

theorem isDigit_of_digits? {cs : List Char} {n m : Nat} (h : digits? n cs = some m) :
    ∀ c ∈ cs, c.isDigit := by
  induction cs generalizing n with
  | nil => exact nofun
  | cons c rest ih =>
    rw [digits?] at h
    cases hdigit : digit? c with
    | none => simp [hdigit] at h
    | some d =>
      rw [hdigit] at h
      exact List.forall_mem_cons.mpr ⟨isDigit_of_digit? hdigit, ih h⟩

/-- Digits behind a number that is not zero are the digits that follow it in decimal. -/
theorem toDigits_append_digits {cs : List Char} (hcs : ∀ c ∈ cs, c.isDigit) {n : Nat} (hn : 0 < n) :
    Nat.toDigits 10 n ++ cs = Nat.toDigits 10 (Nat.ofDigitChars 10 cs n) := by
  induction cs generalizing n with
  | nil => rw [List.append_nil, Nat.ofDigitChars_nil]
  | cons c rest ih =>
    obtain ⟨hc, hrest⟩ := List.forall_mem_cons.mp hcs
    have hrange := toNat_of_isDigit hc
    have hnext : Nat.toDigits 10 n ++ [c] = Nat.toDigits 10 (10 * n + (c.toNat - 48)) := by
      rw [← Nat.toDigits_append_toDigits (by decide) hn (by omega),
        Nat.toDigits_of_lt_base (n := c.toNat - 48) (by omega), digitChar_of_isDigit hc]
    rw [← List.singleton_append, ← List.append_assoc, hnext, ih hrest (by omega)]
    rfl

/-- Leading zeros do not count. -/
theorem ofDigitChars_dropWhile (cs : List Char) :
    Nat.ofDigitChars 10 (cs.dropWhile (· == '0')) 0 = Nat.ofDigitChars 10 cs 0 := by
  induction cs with
  | nil => rfl
  | cons c rest ih =>
    by_cases hc : c = '0'
    · subst hc
      exact ih
    · rw [List.dropWhile_cons_of_neg (by simpa using hc)]

/-! ### Numerals -/

/-- An optional plus and at least one digit. -/
structure Numeral where
  plus : Bool
  digits : List Char
  digits_ne_nil : digits ≠ []
  isDigit_of_mem : ∀ c ∈ digits, c.isDigit

namespace Numeral

/-- The characters of a numeral. -/
def chars (a : Numeral) : List Char :=
  if a.plus then '+' :: a.digits else a.digits

/-- The number that a numeral denotes. -/
def value (a : Numeral) : Nat :=
  Nat.ofDigitChars 10 a.digits 0

/-- The digits of a numeral without leading zeros; one stays if there are no others. -/
def canonical (a : Numeral) : List Char :=
  match a.digits.dropWhile (· == '0') with
  | [] => ['0']
  | digits => digits

/-- A number written in decimal has neither a plus nor leading zeros. -/
theorem toDigits_value (a : Numeral) : Nat.toDigits 10 a.value = a.canonical := by
  rw [value, ← ofDigitChars_dropWhile, canonical]
  cases hsignificant : a.digits.dropWhile (· == '0') with
  | nil => exact Nat.toDigits_zero 10
  | cons first rest =>
    have hdigits : ∀ c ∈ first :: rest, c.isDigit := fun c hc ↦
      a.isDigit_of_mem c ((List.dropWhile_sublist _).subset (hsignificant ▸ hc))
    obtain ⟨hfirst, hrest⟩ := List.forall_mem_cons.mp hdigits
    have hzero : first ≠ '0' := by
      have := List.head?_dropWhile_not (· == '0') a.digits
      simpa [hsignificant] using this
    have hrange := toNat_of_isDigit hfirst
    have hpos : 0 < first.toNat - 48 := by
      have : first.toNat ≠ 48 := fun h ↦ hzero (Char.toNat_inj.mp h)
      omega
    calc Nat.toDigits 10 (Nat.ofDigitChars 10 (first :: rest) 0)
        = Nat.toDigits 10 (Nat.ofDigitChars 10 rest (first.toNat - 48)) := by
          rw [Nat.ofDigitChars_cons, Nat.mul_zero, Nat.zero_add]
          rfl
      _ = Nat.toDigits 10 (first.toNat - 48) ++ rest := (toDigits_append_digits hrest hpos).symm
      _ = first :: rest := by
          rw [Nat.toDigits_of_lt_base (by omega), digitChar_of_isDigit hfirst,
            List.singleton_append]

theorem point_notMem_chars (a : Numeral) : '.' ∉ a.chars := by
  have hdigits : '.' ∉ a.digits := fun hmem ↦ absurd (a.isDigit_of_mem '.' hmem) (by decide)
  rw [chars]
  split <;> simp [hdigits]

end Numeral

/-! ### Reading -/

/-- What stands behind a plus, or all characters if the first is no plus. -/
def unsigned : List Char → List Char
  | '+' :: rest => rest
  | cs => cs

theorem unsigned_of_no_plus {cs : List Char} (h : ∀ rest, cs ≠ '+' :: rest) :
    unsigned cs = cs := by
  rw [unsigned]
  exact h

theorem number?_eq (cs : List Char) :
    number? cs = if (unsigned cs).isEmpty then none
      else (digits? 0 (unsigned cs)).bind fun n ↦ if n < UInt32.size then some n else none := by
  by_cases hplus : ∃ rest, cs = '+' :: rest
  · obtain ⟨rest, rfl⟩ := hplus
    rw [number?, unsigned]
    cases digits? 0 rest <;> rfl
  · have hnoPlus : ∀ rest, cs ≠ '+' :: rest := not_exists.mp hplus
    rw [number?, unsigned_of_no_plus hnoPlus]
    · cases digits? 0 cs <;> rfl
    · exact hnoPlus

/-- What is read as a number has digits only behind its plus, and denotes that number. -/
theorem number?_eq_some_iff {cs : List Char} {n : Nat} :
    number? cs = some n ↔ unsigned cs ≠ [] ∧ (∀ c ∈ unsigned cs, c.isDigit) ∧
      Nat.ofDigitChars 10 (unsigned cs) 0 = n ∧ n < UInt32.size := by
  rw [number?_eq]
  constructor
  · intro h
    split at h
    · cases h
    · rename_i hne
      obtain ⟨m, hm, hbound⟩ := Option.bind_eq_some_iff.mp h
      have hdigits := isDigit_of_digits? hm
      rw [digits?_of_isDigit hdigits, Option.some.injEq] at hm
      split at hbound
      · obtain rfl := Option.some.inj hbound
        exact ⟨fun h ↦ hne (by rw [h]; rfl), hdigits, hm, ‹_›⟩
      · cases hbound
  · rintro ⟨hne, hdigits, hvalue, hbound⟩
    rw [if_neg (by simpa using hne), digits?_of_isDigit hdigits, hvalue, Option.bind_some,
      if_pos hbound]

theorem Numeral.unsigned_chars (a : Numeral) : unsigned a.chars = a.digits := by
  rw [chars]
  split
  · rfl
  · -- a digit is no plus
    obtain ⟨first, rest, hdigits⟩ := List.exists_cons_of_ne_nil a.digits_ne_nil
    have hfirst : first.isDigit := a.isDigit_of_mem first (hdigits ▸ List.mem_cons_self)
    rw [hdigits]
    refine unsigned_of_no_plus fun rest' h ↦ ?_
    obtain ⟨rfl, -⟩ := List.cons.inj h
    exact absurd hfirst (by decide)

/-- What is read as a number is a numeral of that number, below `2 ^ 32`. -/
theorem number?_eq_some_iff_numeral {cs : List Char} {n : Nat} :
    number? cs = some n ↔ ∃ a : Numeral, cs = a.chars ∧ a.value = n ∧ n < UInt32.size := by
  rw [number?_eq_some_iff]
  constructor
  · rintro ⟨hne, hdigits, hvalue, hbound⟩
    by_cases hplus : ∃ rest, cs = '+' :: rest
    · obtain ⟨rest, rfl⟩ := hplus
      exact ⟨⟨true, rest, hne, hdigits⟩, rfl, hvalue, hbound⟩
    · have hcs : unsigned cs = cs := unsigned_of_no_plus (not_exists.mp hplus)
      exact ⟨⟨false, unsigned cs, hne, hdigits⟩, hcs.symm, hvalue, hbound⟩
  · rintro ⟨a, rfl, hvalue, hbound⟩
    rw [a.unsigned_chars]
    exact ⟨a.digits_ne_nil, a.isDigit_of_mem, hvalue, hbound⟩

theorem splitAtPoint_eq_some_iff {cs head tail : List Char} :
    splitAtPoint cs = some (head, tail) ↔ cs = head ++ '.' :: tail ∧ '.' ∉ head := by
  refine ⟨fun h ↦ ?_, fun ⟨hcs, hhead⟩ ↦ hcs ▸ splitAtPoint_append hhead tail⟩
  induction cs generalizing head with
  | nil => cases h
  | cons c rest ih =>
    rw [splitAtPoint] at h
    split at h
    · rename_i hc
      obtain ⟨rfl, rfl⟩ := Prod.mk.inj (Option.some.inj h)
      exact ⟨by rw [hc, List.nil_append], List.not_mem_nil⟩
    · rename_i hc
      obtain ⟨⟨head', tail'⟩, hsplit, hcons⟩ := Option.map_eq_some_iff.mp h
      obtain ⟨rfl, rfl⟩ := Prod.mk.inj hcons
      obtain ⟨hrest, hhead⟩ := ih hsplit
      exact ⟨by rw [hrest, List.cons_append], by simp [hhead, Ne.symm hc]⟩

/-- A text is read as a group exactly if it is two numerals with a point between them. -/
theorem parse_eq_ok_iff {s : String} {g : GroupId} :
    parse s = .ok g ↔ ∃ a b : Numeral, s.toList = a.chars ++ '.' :: b.chars ∧ '.' ∉ a.chars ∧
      a.value < UInt32.size ∧ b.value < UInt32.size ∧ g = ⟨a.value, b.value⟩ := by
  constructor
  · intro h
    rw [parse] at h
    cases hsplit : splitAtPoint s.toList with
    | none => simp [hsplit] at h
    | some sides =>
      obtain ⟨scope, ordinal⟩ := sides
      cases hscope : number? scope with
      | none => simp [hsplit, hscope] at h
      | some m =>
        cases hordinal : number? ordinal with
        | none => simp [hsplit, hscope, hordinal] at h
        | some n =>
          simp only [hsplit, hscope, hordinal, Except.ok.injEq] at h
          obtain ⟨a, rfl, rfl, ha⟩ := number?_eq_some_iff_numeral.mp hscope
          obtain ⟨b, rfl, rfl, hb⟩ := number?_eq_some_iff_numeral.mp hordinal
          exact ⟨a, b, (splitAtPoint_eq_some_iff.mp hsplit).1, a.point_notMem_chars, ha, hb, h.symm⟩
  · rintro ⟨a, b, hs, hpoint, ha, hb, rfl⟩
    have hscope : number? a.chars = some a.value :=
      number?_eq_some_iff_numeral.mpr ⟨a, rfl, rfl, ha⟩
    have hordinal : number? b.chars = some b.value :=
      number?_eq_some_iff_numeral.mpr ⟨b, rfl, rfl, hb⟩
    rw [parse, hs, splitAtPoint_append hpoint]
    simp only [hscope, hordinal]

/-- The text of a group is a key for it. It is read back as the group, for any two numbers of 32
bits, and is the text of no other group. All the texts that are read as a group are those of two
numerals below `2 ^ 32` on the two sides of their first point, and the text of the group that is
read from one is its numerals without their pluses and leading zeros. -/
theorem text_is_key :
    (∀ scope ordinal : UInt32,
      parse (text ⟨scope.toNat, ordinal.toNat⟩) = .ok ⟨scope.toNat, ordinal.toNat⟩) ∧
    Function.Injective text ∧
    (∀ (s : String) (g : GroupId), parse s = .ok g ↔
      ∃ a b : Numeral, s.toList = a.chars ++ '.' :: b.chars ∧ '.' ∉ a.chars ∧
        a.value < UInt32.size ∧ b.value < UInt32.size ∧ g = ⟨a.value, b.value⟩) ∧
    ∀ a b : Numeral, (text ⟨a.value, b.value⟩).toList = a.canonical ++ '.' :: b.canonical :=
  ⟨fun scope ordinal ↦ parse_text scope.toNat_lt ordinal.toNat_lt, text_injective,
    fun _ _ ↦ parse_eq_ok_iff,
    fun a b ↦ by rw [toList_text, a.toDigits_value, b.toDigits_value]⟩

/-- A plus and leading zeros before the first point, and the greatest number behind it. -/
theorem text_is_key_padded :
    parse "+007.4294967295" = .ok ⟨7, 4294967295⟩ ∧
      (text ⟨7, 4294967295⟩).toList = "7.4294967295".toList := by
  obtain ⟨-, -, hparse, hshown⟩ := text_is_key
  let a : Numeral := ⟨true, "007".toList, by decide, by simp⟩
  let b : Numeral := ⟨false, "4294967295".toList, by decide, by simp⟩
  exact ⟨(hparse _ _).mpr ⟨a, b, rfl, by decide, by decide, by decide, rfl⟩, hshown a b⟩

end Dataflow.GroupId
