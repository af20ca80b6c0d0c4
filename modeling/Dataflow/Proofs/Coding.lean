import Dataflow.Graph.Node
import Dataflow.Text.Base64

/-!
# Reading texts back

What is persisted is kept under the text of a group and written in base64. Both can be read back: a
group from its text, as long as its numbers fit into 32 bits (`GroupId.parse_text`), and any bytes
from theirs (`Text.Base64.decode_encode`). Texts of two groups differ whatever their numbers are
(`GroupId.text_injective`).
-/

set_option autoImplicit false
set_option relaxedAutoImplicit false

namespace Dataflow

/-! ### Groups -/

namespace GroupId

theorem digit?_of_isDigit {c : Char} (h : c.isDigit) : digit? c = some (c.toNat - '0'.toNat) := by
  have hrange : '0' ≤ c ∧ c ≤ '9' := by
    simpa [Char.isDigit, Char.le_def] using h
  rw [digit?, if_pos hrange]
  rfl

theorem digits?_of_isDigit {cs : List Char} (h : ∀ c ∈ cs, c.isDigit) (n : Nat) :
    digits? n cs = some (Nat.ofDigitChars 10 cs n) := by
  induction cs generalizing n with
  | nil => rfl
  | cons c rest ih =>
    rw [digits?, digit?_of_isDigit (h c List.mem_cons_self), Nat.ofDigitChars_cons]
    exact ih (fun other hother ↦ h other (List.mem_cons_of_mem _ hother)) _

/-- The digits of a number below `2 ^ 32` read as the number. -/
theorem number?_toDigits {n : Nat} (hn : n < UInt32.size) :
    number? (Nat.toDigits 10 n) = some n := by
  have hdigits : ∀ c ∈ Nat.toDigits 10 n, c.isDigit := fun c hc ↦
    Nat.isDigit_of_mem_toDigits (by decide) (by decide) hc
  cases hcs : Nat.toDigits 10 n with
  | nil => exact absurd hcs Nat.toDigits_ne_nil
  | cons first rest =>
    rw [hcs] at hdigits
    have hplus : first ≠ '+' := by
      rintro rfl
      exact absurd (hdigits '+' List.mem_cons_self) (by decide)
    have hvalue : digits? 0 (first :: rest) = some n := by
      rw [digits?_of_isDigit hdigits, ← hcs, Nat.ofDigitChars_toDigits (by decide) (by decide)]
    simp only [number?]
    split
    · rename_i heq
      simp_all
    · simp [hvalue, hn]

theorem splitAtPoint_append {head : List Char} (h : '.' ∉ head) (tail : List Char) :
    splitAtPoint (head ++ '.' :: tail) = some (head, tail) := by
  induction head with
  | nil => simp [splitAtPoint]
  | cons c rest ih =>
    obtain ⟨hc, hrest⟩ := not_or.mp (fun hor ↦ h (List.mem_cons.mpr hor))
    rw [List.cons_append, splitAtPoint, if_neg (Ne.symm hc), ih hrest]
    rfl

theorem toList_text (g : GroupId) :
    g.text.toList = Nat.toDigits 10 g.scope ++ '.' :: Nat.toDigits 10 g.ordinal := by
  simp [text, String.toList_append]
  rfl

theorem point_notMem_toDigits (n : Nat) : '.' ∉ Nat.toDigits 10 n := fun hmem ↦
  absurd (Nat.isDigit_of_mem_toDigits (by decide) (by decide) hmem) (by decide)

/-- A group is read back from its text. -/
theorem parse_text {g : GroupId} (hscope : g.scope < UInt32.size)
    (hordinal : g.ordinal < UInt32.size) : parse g.text = .ok g := by
  rw [parse, toList_text, splitAtPoint_append (point_notMem_toDigits g.scope)]
  simp only [number?_toDigits hscope, number?_toDigits hordinal]

/-- The text of a group tells it from all others. -/
theorem text_injective : Function.Injective text := by
  intro g g' h
  have hsplit := congrArg (splitAtPoint ∘ String.toList) h
  simp only [Function.comp, toList_text, splitAtPoint_append (point_notMem_toDigits _),
    Option.some.injEq, Prod.mk.injEq] at hsplit
  have hvalue {m n : Nat} (hdigits : Nat.toDigits 10 m = Nat.toDigits 10 n) : m = n := by
    rw [← Nat.ofDigitChars_toDigits (b := 10) (n := m) (by decide) (by decide), hdigits,
      Nat.ofDigitChars_toDigits (by decide) (by decide)]
  obtain ⟨scope, ordinal⟩ := g
  obtain ⟨scope', ordinal'⟩ := g'
  rw [GroupId.mk.injEq]
  exact ⟨hvalue hsplit.1, hvalue hsplit.2⟩

end GroupId

/-! ### Bytes -/

namespace Text.Base64

theorem symbol_spec : ∀ n < 64, number? (symbol n) = some n ∧ symbol n ≠ pad ∧ symbol n < 128 := by
  decide

theorem number?_symbol {n : Nat} (hn : n < 64) : number? (symbol n) = some n :=
  (symbol_spec n hn).1

theorem symbol_ne_pad {n : Nat} (hn : n < 64) : symbol n ≠ pad :=
  (symbol_spec n hn).2.1

theorem symbol_lt {n : Nat} (hn : n < 64) : symbol n < 128 :=
  (symbol_spec n hn).2.2

theorem lastSymbols_symbol (offset position : Nat) {n : Nat} (hn : n < 64) (rest : List Nat) :
    lastSymbols offset position (symbol n :: rest) =
      (lastSymbols offset (position + 1) rest).map fun (numbers, padding) ↦
        (n :: numbers, padding) := by
  rw [lastSymbols, if_neg (symbol_ne_pad hn), number?_symbol hn]
  cases lastSymbols offset (position + 1) rest <;> rfl

theorem decodeGroups_symbols (offset : Nat) {a b c d : Nat} (ha : a < 64) (hb : b < 64)
    (hc : c < 64) (hd : d < 64) (rest : List Nat) :
    decodeGroups offset (symbol a :: symbol b :: symbol c :: symbol d :: rest) =
      (decodeGroups (offset + 4) rest).map (fourBytes a b c d ++ ·) := by
  cases rest with
  | nil =>
    have hlast : lastSymbols offset 0 [symbol a, symbol b, symbol c, symbol d] =
        .ok ([a, b, c, d], 0) := by
      simp only [lastSymbols_symbol _ _, ha, hb, hc, hd]
      rfl
    have hdone : decodeGroups (offset + 4) [] = .ok [] := rfl
    rw [hdone]
    simp only [decodeGroups, decodeLast, hlast, bind, Except.bind]
    simp [Except.map, pure, Except.pure]
  | cons e rest =>
    simp only [decodeGroups, number?_symbol ha, number?_symbol hb, number?_symbol hc,
      number?_symbol hd]
    cases decodeGroups (offset + 4) (e :: rest) <;> rfl

theorem fourBytes_eq (a b c : UInt8) :
    let n := (a.toNat * 256 + b.toNat) * 256 + c.toNat
    fourBytes (n / 262144) (n / 4096 % 64) (n / 64 % 64) (n % 64) = [a, b, c] := by
  have ha := a.toNat_lt
  have hb := b.toNat_lt
  have hc := c.toNat_lt
  intro n
  have hn : ((n / 262144 * 64 + n / 4096 % 64) * 64 + n / 64 % 64) * 64 + n % 64 = n := by omega
  have h1 : n / 65536 = a.toNat := by omega
  have h2 : n / 256 % 256 = b.toNat := by omega
  have h3 : n % 256 = c.toNat := by omega
  simp only [fourBytes, hn, h1, h2, h3, UInt8.ofNat_toNat]

theorem decodeGroups_pair (offset : Nat) (a b : UInt8) :
    decodeGroups offset (encodeBytes [a, b]) = .ok [a, b] := by
  have ha := a.toNat_lt
  have hb := b.toNat_lt
  simp only [encodeBytes]
  generalize hn : (a.toNat * 256 + b.toNat) * 4 = n
  have h1 : n / 4096 < 64 := by omega
  have h2 : n / 64 % 64 < 64 := by omega
  have h3 : n % 64 < 64 := by omega
  have h0 : n % 64 % 4 = 0 := by omega
  have hvalue : ((n / 4096 * 64 + n / 64 % 64) * 64 + n % 64) / 4 = a.toNat * 256 + b.toNat := by
    omega
  have hfirst : (a.toNat * 256 + b.toNat) / 256 = a.toNat := by omega
  have hsecond : (a.toNat * 256 + b.toNat) % 256 = b.toNat := by omega
  have hlast : lastSymbols offset 0
      [symbol (n / 4096), symbol (n / 64 % 64), symbol (n % 64), pad] =
        .ok ([n / 4096, n / 64 % 64, n % 64], 1) := by
    simp only [lastSymbols_symbol _ _, h1, h2, h3]
    rfl
  simp only [decodeGroups, decodeLast, hlast, bind, Except.bind]
  simp [h0, hvalue, hfirst, hsecond, pure, Except.pure]

theorem decodeGroups_single (offset : Nat) (a : UInt8) :
    decodeGroups offset (encodeBytes [a]) = .ok [a] := by
  have ha := a.toNat_lt
  simp only [encodeBytes]
  generalize hn : a.toNat * 16 = n
  have h1 : n / 64 < 64 := by omega
  have h2 : n % 64 < 64 := by omega
  have h0 : n % 64 % 16 = 0 := by omega
  have hvalue : n / 64 * 4 + n % 64 / 16 = a.toNat := by omega
  have hlast : lastSymbols offset 0 [symbol (n / 64), symbol (n % 64), pad, pad] =
      .ok ([n / 64, n % 64], 2) := by
    simp only [lastSymbols_symbol _ _, h1, h2]
    rfl
  simp only [decodeGroups, decodeLast, hlast, bind, Except.bind]
  simp [h0, hvalue, pure, Except.pure]

theorem decodeGroups_encodeBytes (bytes : List UInt8) (offset : Nat) :
    decodeGroups offset (encodeBytes bytes) = .ok bytes := by
  induction bytes using encodeBytes.induct generalizing offset with
  | case1 a b c rest ih =>
    have ha := a.toNat_lt
    have hb := b.toNat_lt
    have hc := c.toNat_lt
    rw [encodeBytes, decodeGroups_symbols offset (by omega) (by omega) (by omega) (by omega),
      ih (offset + 4), fourBytes_eq a b c]
    rfl
  | case2 a b => exact decodeGroups_pair offset a b
  | case3 a => exact decodeGroups_single offset a
  | case4 => rfl

theorem length_encodeBytes (bytes : List UInt8) : (encodeBytes bytes).length % 4 = 0 := by
  fun_induction encodeBytes bytes with
  | case1 a b c rest n ih => simp only [List.length_cons]; omega
  | case2 => simp
  | case3 => simp
  | case4 => rfl

theorem lt_of_mem_encodeBytes (bytes : List UInt8) : ∀ n ∈ encodeBytes bytes, n < 128 := by
  induction bytes using encodeBytes.induct with
  | case1 a b c rest ih =>
    have ha := a.toNat_lt
    have hb := b.toNat_lt
    have hc := c.toNat_lt
    simp only [encodeBytes, List.forall_mem_cons]
    exact ⟨symbol_lt (by omega), symbol_lt (by omega), symbol_lt (by omega), symbol_lt (by omega),
      ih⟩
  | case2 a b =>
    have ha := a.toNat_lt
    have hb := b.toNat_lt
    simp only [encodeBytes, List.forall_mem_cons]
    exact ⟨symbol_lt (by omega), symbol_lt (by omega), symbol_lt (by omega), by decide,
      fun _ h ↦ absurd h List.not_mem_nil⟩
  | case3 a =>
    have ha := a.toNat_lt
    simp only [encodeBytes, List.forall_mem_cons]
    exact ⟨symbol_lt (by omega), symbol_lt (by omega), by decide, by decide,
      fun _ h ↦ absurd h List.not_mem_nil⟩
  | case4 => exact fun _ h ↦ absurd h List.not_mem_nil

theorem toList_loop (bytes : ByteArray) (i : Nat) (done : List UInt8) :
    ByteArray.toList.loop bytes i done = done.reverse ++ bytes.data.toList.drop i := by
  fun_induction ByteArray.toList.loop bytes i done with
  | case1 i done h ih =>
    have hlt : i < bytes.data.toList.length := by simpa using h
    have hget : bytes.get! i = bytes.data.toList[i] := by
      simp [ByteArray.get!, getElem!_pos, h]
    rw [ih, hget, List.drop_eq_getElem_cons hlt]
    simp
  | case2 i done h =>
    rw [List.drop_of_length_le (by simpa using h), List.append_nil]

theorem toList_toUTF8 (text : String) : text.toUTF8.toList = text.toByteArray.data.toList := by
  simp [ByteArray.toList, toList_loop]

theorem utf8EncodeChar_ofNat {n : Nat} (hn : n < 128) :
    String.utf8EncodeChar (Char.ofNat n) = [UInt8.ofNat n] := by
  revert hn
  revert n
  decide

theorem toNat_utf8Encode {codes : List Nat} (h : ∀ n ∈ codes, n < 128) :
    (codes.map Char.ofNat).utf8Encode.data.toList.map UInt8.toNat = codes := by
  induction codes with
  | nil => rfl
  | cons n rest ih =>
    have hn : n < 128 := h n List.mem_cons_self
    rw [List.map_cons, List.utf8Encode_cons, ByteArray.toList_data_append, List.map_append,
      ih fun other hother ↦ h other (List.mem_cons_of_mem _ hother), List.utf8Encode_singleton,
      List.toList_data_toByteArray, utf8EncodeChar_ofNat hn]
    simp
    omega

/-- Bytes are read back from their text. -/
theorem decode_encode (bytes : List UInt8) : decode (encode bytes) = .ok bytes := by
  have hbytes : (encode bytes).toUTF8.toList.map UInt8.toNat = encodeBytes bytes := by
    rw [toList_toUTF8, encode, String.toByteArray_ofList,
      toNat_utf8Encode (lt_of_mem_encodeBytes bytes)]
  have hlength : (encodeBytes bytes).length % 4 ≠ 1 := by
    rw [length_encodeBytes]
    decide
  simp only [decode, hbytes, if_neg hlength]
  exact decodeGroups_encodeBytes bytes 0

end Text.Base64

end Dataflow
