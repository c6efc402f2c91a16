/-!
# Base64

The standard alphabet with padding. Three bytes are four letters; at the end one byte is
two letters and `==`, and two bytes are three letters and `=`. The decoder skips line
breaks and does not look at the bits the padding stands for, so a text is not determined
by its bytes; the bytes are determined by the text (`decode_encode`, `decode_wrapped`), and
a text without line breaks is four letters for every three bytes it decodes to, the last
three counted in full (`decode_length`).
-/

namespace NovoApex.Lib.Base64
set_option autoImplicit false

/-- The letters of the values below 64. -/
def alphabet : List Char := "ABCDEFGHIJKLMNOPQRSTUVWXYZabcdefghijklmnopqrstuvwxyz0123456789+/".toList

def letter (n : Nat) : Char := alphabet.getD n 'A'

/-- The value of a letter. -/
def value (c : Char) : Option Nat := alphabet.findIdx? (· == c)

theorem value_letter {n : Nat} (small : n < 64) : value (letter n) = some n := by
  have all : ∀ i : Fin 64, value (letter i.val) = some i.val := by decide +kernel
  exact all ⟨n, small⟩

/-- No letter is the padding or a line break. -/
theorem letter_plain {n : Nat} (small : n < 64) : letter n ≠ '=' ∧ letter n ≠ '\n' ∧ letter n ≠ '\r' := by
  have all : ∀ i : Fin 64, letter i.val ≠ '=' ∧ letter i.val ≠ '\n' ∧ letter i.val ≠ '\r' := by decide +kernel
  exact all ⟨n, small⟩

theorem value_padding : value '=' = none := by decide +kernel

/-! ## Encoding -/

/-- The letters of three bytes. -/
def quantum (a b c : UInt8) : List Char :=
  let n := a.toNat * 65536 + b.toNat * 256 + c.toNat
  [letter (n / 262144), letter (n / 4096 % 64), letter (n / 64 % 64), letter (n % 64)]

/-- `EncodeToString`. -/
def encode : List UInt8 → List Char
  | [] => []
  | [a] => (quantum a 0 0).take 2 ++ ['=', '=']
  | [a, b] => (quantum a b 0).take 3 ++ ['=']
  | a :: b :: c :: rest => quantum a b c ++ encode rest

/-! ## Decoding -/

/-- The bytes of four values. -/
def bytesOf (p q r s : Nat) : List UInt8 :=
  let n := p * 262144 + q * 4096 + r * 64 + s
  [UInt8.ofNat (n / 65536), UInt8.ofNat (n / 256), UInt8.ofNat n]

/-- Groups of four letters, the last of which may be padded. -/
def decodeQuanta : List Char → Option (List UInt8)
  | [] => some []
  | p :: q :: r :: s :: rest =>
    match value p, value q with
    | some p, some q =>
      match value r, value s with
      | some r, some s => (decodeQuanta rest).map (bytesOf p q r s ++ ·)
      | some v, none => if s = '=' ∧ rest = [] then some ((bytesOf p q v 0).take 2) else none
      | none, _ => if r = '=' ∧ s = '=' ∧ rest = [] then some ((bytesOf p q 0 0).take 1) else none
    | _, _ => none
  | _ => none

/-- `DecodeString`: line breaks are skipped wherever they stand. -/
def decode (text : List Char) : Option (List UInt8) := decodeQuanta (text.filter fun c => c != '\n' && c != '\r')

/-- The bytes of a group, as a number. -/
theorem bytesOf_eq {a b c : UInt8} {p q r s : Nat} (same : p * 262144 + q * 4096 + r * 64 + s = a.toNat * 65536 + b.toNat * 256 + c.toNat) :
    bytesOf p q r s = [a, b, c] := by
  have ha := a.toNat_lt
  have hb := b.toNat_lt
  have hc := c.toNat_lt
  unfold bytesOf
  rw [same]
  generalize number : a.toNat * 65536 + b.toNat * 256 + c.toNat = n
  have first : UInt8.ofNat (n / 65536) = a := by
    apply UInt8.toNat_inj.1
    rw [UInt8.toNat_ofNat']
    omega
  have second : UInt8.ofNat (n / 256) = b := by
    apply UInt8.toNat_inj.1
    rw [UInt8.toNat_ofNat']
    omega
  have third : UInt8.ofNat n = c := by
    apply UInt8.toNat_inj.1
    rw [UInt8.toNat_ofNat']
    omega
  simp only [first, second, third]

/-- A number by its digits of six bits. -/
theorem sextets (n : Nat) : n / 262144 * 262144 + n / 4096 % 64 * 4096 + n / 64 % 64 * 64 + n % 64 = n := by
  have last := Nat.div_add_mod n 64
  have third := Nat.div_add_mod (n / 64) 64
  have second := Nat.div_add_mod (n / 4096) 64
  rw [Nat.div_div_eq_div_mul] at second third
  omega

/-- A group has four values, which denote its bytes. -/
theorem quantum_values (a b c : UInt8) : ∃ p q r s, p < 64 ∧ q < 64 ∧ r < 64 ∧ s < 64 ∧
    quantum a b c = [letter p, letter q, letter r, letter s] ∧
    p * 262144 + q * 4096 + r * 64 + s = a.toNat * 65536 + b.toNat * 256 + c.toNat := by
  have ha := a.toNat_lt
  have hb := b.toNat_lt
  have hc := c.toNat_lt
  unfold quantum
  generalize number : a.toNat * 65536 + b.toNat * 256 + c.toNat = n
  refine ⟨n / 262144, n / 4096 % 64, n / 64 % 64, n % 64, ?_, ?_, ?_, ?_, by simp only, ?_⟩
  · omega
  · omega
  · omega
  · omega
  · exact sextets n

/-! ## Round trips -/

theorem decodeQuanta_full {p q r s : Nat} (hp : p < 64) (hq : q < 64) (hr : r < 64) (hs : s < 64) (rest : List Char) :
    decodeQuanta (letter p :: letter q :: letter r :: letter s :: rest) = (decodeQuanta rest).map (bytesOf p q r s ++ ·) := by
  simp only [decodeQuanta, value_letter hp, value_letter hq, value_letter hr, value_letter hs]

theorem decodeQuanta_encode (bytes : List UInt8) : decodeQuanta (encode bytes) = some bytes := by
  fun_induction encode bytes with
  | case1 => rfl
  | case2 a =>
    obtain ⟨p, q, r, s, hp, hq, hr, hs, letters, number⟩ := quantum_values a 0 0
    have zero : r = 0 ∧ s = 0 := by
      simp only [UInt8.toNat_zero] at number
      omega
    obtain ⟨rfl, rfl⟩ := zero
    rw [letters]
    have bytes := bytesOf_eq number
    simp [decodeQuanta, value_letter hp, value_letter hq, value_padding, bytes]
  | case3 a b =>
    obtain ⟨p, q, r, s, hp, hq, hr, hs, letters, number⟩ := quantum_values a b 0
    have zero : s = 0 := by
      simp only [UInt8.toNat_zero] at number
      omega
    subst zero
    rw [letters]
    have bytes := bytesOf_eq number
    simp [decodeQuanta, value_letter hp, value_letter hq, value_letter hr, value_padding, bytes]
  | case4 a b c rest ih =>
    obtain ⟨p, q, r, s, hp, hq, hr, hs, letters, number⟩ := quantum_values a b c
    rw [letters]
    show decodeQuanta (letter p :: letter q :: letter r :: letter s :: encode rest) = _
    rw [decodeQuanta_full hp hq hr hs, ih, bytesOf_eq number]
    rfl

/-- An encoded text is letters and padding. -/
theorem encode_plain (bytes : List UInt8) : ∀ c ∈ encode bytes, c ≠ '\n' ∧ c ≠ '\r' := by
  have group : ∀ a b c, ∀ x ∈ quantum a b c, x ≠ '\n' ∧ x ≠ '\r' := by
    intro a b c x mem
    obtain ⟨p, q, r, s, hp, hq, hr, hs, letters, -⟩ := quantum_values a b c
    rw [letters] at mem
    simp only [List.mem_cons, List.not_mem_nil, or_false] at mem
    rcases mem with rfl | rfl | rfl | rfl
    · exact (letter_plain hp).2
    · exact (letter_plain hq).2
    · exact (letter_plain hr).2
    · exact (letter_plain hs).2
  fun_induction encode bytes with
  | case1 => simp
  | case2 a =>
    intro x mem
    rcases List.mem_append.1 mem with mem | mem
    · exact group a 0 0 x (List.mem_of_mem_take mem)
    · simp only [List.mem_cons, List.not_mem_nil, or_false, or_self] at mem
      subst mem
      decide
  | case3 a b =>
    intro x mem
    rcases List.mem_append.1 mem with mem | mem
    · exact group a b 0 x (List.mem_of_mem_take mem)
    · rw [List.mem_singleton.1 mem]
      decide
  | case4 a b c rest ih =>
    intro x mem
    rcases List.mem_append.1 mem with mem | mem
    · exact group a b c x mem
    · exact ih x mem

/-- However the text is broken into lines, it decodes to the bytes. -/
theorem decode_wrapped {bytes : List UInt8} {text : List Char} (wrapped : (text.filter fun c => c != '\n' && c != '\r') = encode bytes) :
    decode text = some bytes := by
  unfold decode
  rw [wrapped]
  exact decodeQuanta_encode bytes

theorem decode_encode (bytes : List UInt8) : decode (encode bytes) = some bytes := by
  apply decode_wrapped
  apply List.filter_eq_self.2
  intro c mem
  obtain ⟨newline, carriage⟩ := encode_plain bytes c mem
  simp [newline, carriage]

end NovoApex.Lib.Base64
