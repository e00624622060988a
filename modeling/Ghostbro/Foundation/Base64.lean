import Ghostbro.Foundation.Words

/-!
# Base64 with canonical padding

Three bytes are four symbols of an alphabet of 64; one or two bytes at the end are padded to four
symbols, and the bits that padding leaves over are zero.  A decoder that insists on the padding and
on the zero bits accepts exactly the texts that the encoder writes, so the bytes of a text are
known from the text and the text from its bytes.

`Codec` is what a program relies on; `Alphabet.codec` is one for every alphabet.
-/

namespace Ghostbro.Base64

/-- An encoder and the decoder of exactly the texts that it writes. -/
structure Codec where
  encode : Bytes → String
  decode : String → Option Bytes
  decode_eq_some_iff : ∀ text bytes, decode text = some bytes ↔ text = encode bytes
  length_encode : ∀ bytes, (encode bytes).length = 4 * ((bytes.length + 2) / 3)
  mem_encode : ∀ bytes, ∀ symbol ∈ (encode bytes).toList,
    symbol.isAlphanum = true ∨ symbol ∈ ['+', '/', '=']

namespace Codec

variable (codec : Codec)

@[simp]
theorem decode_encode (bytes : Bytes) : codec.decode (codec.encode bytes) = some bytes :=
  (codec.decode_eq_some_iff _ _).mpr rfl

theorem encode_injective : Function.Injective codec.encode := by
  intro bytes bytes' heq
  rw [← Option.some_inj, ← codec.decode_encode bytes, heq, codec.decode_encode]

/-- A text that was cut short is the text of fewer bytes, or of none. -/
theorem length_lt_of_decode_take {bytes part : Bytes} {written : ℕ}
    (hcut : written < (codec.encode bytes).length)
    (hdecode : codec.decode (String.ofList ((codec.encode bytes).toList.take written)) =
      some part) : part.length < bytes.length := by
  have htext := (codec.decode_eq_some_iff _ _).mp hdecode
  have hlength : (codec.encode part).length = written := by
    rw [← htext, String.length_ofList, List.length_take, String.length_toList]
    omega
  rw [codec.length_encode] at hcut hlength
  omega

end Codec

/-- Names for the numbers below 64; none of them is the padding. -/
structure Alphabet where
  symbol : ℕ → Char
  value : Char → Option ℕ
  value_eq_some_iff : ∀ char number, value char = some number ↔
    number < 64 ∧ symbol number = char
  value_pad : value '=' = none
  mem_symbol : ∀ number < 64,
    (symbol number).isAlphanum = true ∨ symbol number ∈ ['+', '/']

/-! ### Three bytes and four numbers below 64 -/

/-- The number of the first symbol. -/
def sextet0 (first : UInt8) : ℕ := first.toNat / 4

def sextet1 (first second : UInt8) : ℕ := first.toNat % 4 * 16 + second.toNat / 16

def sextet2 (second third : UInt8) : ℕ := second.toNat % 16 * 4 + third.toNat / 64

def sextet3 (third : UInt8) : ℕ := third.toNat % 64

/-- The first byte, of the first two numbers. -/
def byte0 (first second : ℕ) : UInt8 := UInt8.ofNat (first * 4 + second / 16)

def byte1 (second third : ℕ) : UInt8 := UInt8.ofNat (second % 16 * 16 + third / 4)

def byte2 (third fourth : ℕ) : UInt8 := UInt8.ofNat (third % 4 * 64 + fourth)

theorem sextet0_lt (first : UInt8) : sextet0 first < 64 := by
  have hfirst := first.toNat_lt
  unfold sextet0
  omega

theorem sextet1_lt (first second : UInt8) : sextet1 first second < 64 := by
  have hsecond := second.toNat_lt
  unfold sextet1
  omega

theorem sextet2_lt (second third : UInt8) : sextet2 second third < 64 := by
  have hthird := third.toNat_lt
  unfold sextet2
  omega

theorem sextet3_lt (third : UInt8) : sextet3 third < 64 := Nat.mod_lt _ (by decide)

theorem ofNat_eq {number : ℕ} {byte : UInt8} (h : number = byte.toNat) :
    UInt8.ofNat number = byte := by rw [h, UInt8.ofNat_toNat]

@[simp]
theorem byte0_sextets (first second : UInt8) :
    byte0 (sextet0 first) (sextet1 first second) = first := by
  have hsecond := second.toNat_lt
  apply ofNat_eq
  unfold sextet0 sextet1
  omega

@[simp]
theorem byte1_sextets (first second third : UInt8) :
    byte1 (sextet1 first second) (sextet2 second third) = second := by
  have hsecond := second.toNat_lt
  have hthird := third.toNat_lt
  apply ofNat_eq
  unfold sextet1 sextet2
  omega

@[simp]
theorem byte2_sextets (second third : UInt8) :
    byte2 (sextet2 second third) (sextet3 third) = third := by
  have hthird := third.toNat_lt
  apply ofNat_eq
  unfold sextet2 sextet3
  omega

section Numbers

variable {first second third fourth : ℕ}

theorem toNat_byte0 (hfirst : first < 64) (hsecond : second < 64) :
    (byte0 first second).toNat = first * 4 + second / 16 := by
  rw [byte0, UInt8.toNat_ofNat', Nat.mod_eq_of_lt (by omega)]

theorem toNat_byte1 (hthird : third < 64) :
    (byte1 second third).toNat = second % 16 * 16 + third / 4 := by
  rw [byte1, UInt8.toNat_ofNat', Nat.mod_eq_of_lt (by omega)]

theorem toNat_byte2 (hfourth : fourth < 64) :
    (byte2 third fourth).toNat = third % 4 * 64 + fourth := by
  rw [byte2, UInt8.toNat_ofNat', Nat.mod_eq_of_lt (by omega)]

theorem sextet0_bytes (hfirst : first < 64) (hsecond : second < 64) :
    sextet0 (byte0 first second) = first := by
  rw [sextet0, toNat_byte0 hfirst hsecond]
  omega

theorem sextet1_bytes (hfirst : first < 64) (hsecond : second < 64) (hthird : third < 64) :
    sextet1 (byte0 first second) (byte1 second third) = second := by
  rw [sextet1, toNat_byte0 hfirst hsecond, toNat_byte1 hthird]
  omega

theorem sextet1_padded (hfirst : first < 64) (hsecond : second < 64) (hzero : second % 16 = 0) :
    sextet1 (byte0 first second) 0 = second := by
  rw [sextet1, toNat_byte0 hfirst hsecond, UInt8.toNat_zero]
  omega

theorem sextet2_bytes (hthird : third < 64) (hfourth : fourth < 64) :
    sextet2 (byte1 second third) (byte2 third fourth) = third := by
  rw [sextet2, toNat_byte1 hthird, toNat_byte2 hfourth]
  omega

theorem sextet2_padded (hthird : third < 64) (hzero : third % 4 = 0) :
    sextet2 (byte1 second third) 0 = third := by
  rw [sextet2, toNat_byte1 hthird, UInt8.toNat_zero]
  omega

theorem sextet3_bytes (hfourth : fourth < 64) : sextet3 (byte2 third fourth) = fourth := by
  rw [sextet3, toNat_byte2 hfourth]
  omega

end Numbers

/-! ### The encoder -/

namespace Alphabet

variable (alphabet : Alphabet)

def encode : Bytes → List Char
  | [] => []
  | [first] =>
    [alphabet.symbol (sextet0 first), alphabet.symbol (sextet1 first 0), '=', '=']
  | [first, second] =>
    [alphabet.symbol (sextet0 first), alphabet.symbol (sextet1 first second),
      alphabet.symbol (sextet2 second 0), '=']
  | first :: second :: third :: rest =>
    alphabet.symbol (sextet0 first) :: alphabet.symbol (sextet1 first second) ::
      alphabet.symbol (sextet2 second third) :: alphabet.symbol (sextet3 third) ::
        encode rest

theorem length_encode (bytes : Bytes) :
    (alphabet.encode bytes).length = 4 * ((bytes.length + 2) / 3) := by
  induction bytes using encode.induct with
  | case1 | case2 | case3 => simp [encode]
  | case4 first second third rest ih =>
    simp only [encode, List.length_cons, ih]
    omega

theorem mem_encode (bytes : Bytes) : ∀ symbol ∈ alphabet.encode bytes,
    symbol.isAlphanum = true ∨ symbol ∈ ['+', '/', '='] := by
  have hsymbol (number : ℕ) (hnumber : number < 64) :
      (alphabet.symbol number).isAlphanum = true ∨
        alphabet.symbol number ∈ ['+', '/', '='] := by
    apply (alphabet.mem_symbol number hnumber).imp_right
    simp only [List.mem_cons, List.not_mem_nil, or_false]
    tauto
  have hpad : '='.isAlphanum = true ∨ '=' ∈ ['+', '/', '='] := .inr (by simp)
  induction bytes using encode.induct with
  | case1 => simp [encode]
  | case2 first =>
    simp only [encode, List.forall_mem_cons]
    exact ⟨hsymbol _ (sextet0_lt _), hsymbol _ (sextet1_lt _ _), hpad, hpad, by simp⟩
  | case3 first second =>
    simp only [encode, List.forall_mem_cons]
    exact ⟨hsymbol _ (sextet0_lt _), hsymbol _ (sextet1_lt _ _), hsymbol _ (sextet2_lt _ _),
      hpad, by simp⟩
  | case4 first second third rest ih =>
    simp only [encode, List.forall_mem_cons]
    exact ⟨hsymbol _ (sextet0_lt _), hsymbol _ (sextet1_lt _ _), hsymbol _ (sextet2_lt _ _),
      hsymbol _ (sextet3_lt _), ih⟩

/-! ### The decoder -/

/-- The byte of two symbols in front of a double padding. -/
def decodeOne (first second : ℕ) : Option Bytes :=
  if second % 16 = 0 then some [byte0 first second] else none

/-- The bytes of three symbols in front of a single padding. -/
def decodeTwo (first second third : ℕ) : Option Bytes :=
  if third % 4 = 0 then some [byte0 first second, byte1 second third] else none

def decode : List Char → Option Bytes
  | [] => some []
  | first :: second :: third :: fourth :: rest => do
    let first ← alphabet.value first
    let second ← alphabet.value second
    if rest = [] ∧ fourth = '=' then
      if third = '=' then decodeOne first second
      else
        let third ← alphabet.value third
        decodeTwo first second third
    else
      let third ← alphabet.value third
      let fourth ← alphabet.value fourth
      let decoded ← decode rest
      some (byte0 first second :: byte1 second third :: byte2 third fourth :: decoded)
  | _ => none

@[simp]
theorem value_symbol {number : ℕ} (h : number < 64) :
    alphabet.value (alphabet.symbol number) = some number :=
  (alphabet.value_eq_some_iff _ _).mpr ⟨h, rfl⟩

theorem symbol_ne_pad {number : ℕ} (h : number < 64) : alphabet.symbol number ≠ '=' := by
  intro heq
  have hvalue := alphabet.value_symbol h
  rw [heq, alphabet.value_pad] at hvalue
  cases hvalue

theorem decode_encode (bytes : Bytes) : alphabet.decode (alphabet.encode bytes) = some bytes := by
  induction bytes using encode.induct with
  | case1 => rfl
  | case2 first =>
    have hzero : sextet1 first 0 % 16 = 0 := by
      simp [sextet1]
    simp [encode, decode, decodeOne, hzero, sextet0_lt, sextet1_lt]
  | case3 first second =>
    have hzero : sextet2 second 0 % 4 = 0 := by
      simp [sextet2]
    have hpad := alphabet.symbol_ne_pad (sextet2_lt second 0)
    simp [encode, decode, decodeTwo, hzero, hpad, sextet0_lt, sextet1_lt, sextet2_lt]
  | case4 first second third rest ih =>
    have hpad := alphabet.symbol_ne_pad (sextet3_lt third)
    simp [encode, decode, hpad, ih, sextet0_lt, sextet1_lt, sextet2_lt, sextet3_lt]

theorem encode_of_decodeOne {first second : ℕ} {bytes : Bytes} (hfirst : first < 64)
    (hsecond : second < 64) (h : decodeOne first second = some bytes) :
    alphabet.encode bytes = [alphabet.symbol first, alphabet.symbol second, '=', '='] := by
  rw [decodeOne] at h
  split at h
  · next hzero =>
    rw [← Option.some.inj h, encode, sextet0_bytes hfirst hsecond,
      sextet1_padded hfirst hsecond hzero]
  · cases h

theorem encode_of_decodeTwo {first second third : ℕ} {bytes : Bytes} (hfirst : first < 64)
    (hsecond : second < 64) (hthird : third < 64)
    (h : decodeTwo first second third = some bytes) :
    alphabet.encode bytes =
      [alphabet.symbol first, alphabet.symbol second, alphabet.symbol third, '='] := by
  rw [decodeTwo] at h
  split at h
  · next hzero =>
    rw [← Option.some.inj h, encode, sextet0_bytes hfirst hsecond,
      sextet1_bytes hfirst hsecond hthird, sextet2_padded hthird hzero]
  · cases h

theorem encode_of_decode {text : List Char} {bytes : Bytes}
    (h : alphabet.decode text = some bytes) : alphabet.encode bytes = text := by
  induction text using decode.induct generalizing bytes with
  | case1 =>
    rw [← Option.some.inj h]
    rfl
  | case2 first second third fourth rest ih =>
    simp only [decode, Option.bind_eq_bind, Option.bind_eq_some_iff] at h
    obtain ⟨number, hnumber, number', hnumber', h⟩ := h
    obtain ⟨hfirst, rfl⟩ := (alphabet.value_eq_some_iff _ _).mp hnumber
    obtain ⟨hsecond, rfl⟩ := (alphabet.value_eq_some_iff _ _).mp hnumber'
    split at h
    · next hlast =>
      obtain ⟨rfl, rfl⟩ := hlast
      split at h
      · next hpad =>
        rw [hpad]
        exact alphabet.encode_of_decodeOne hfirst hsecond h
      · rw [Option.bind_eq_some_iff] at h
        obtain ⟨number'', hnumber'', h⟩ := h
        obtain ⟨hthird, rfl⟩ := (alphabet.value_eq_some_iff _ _).mp hnumber''
        exact alphabet.encode_of_decodeTwo hfirst hsecond hthird h
    · simp only [Option.bind_eq_some_iff] at h
      obtain ⟨_, hvalue, _, hvalue', decoded, hdecoded, hbytes⟩ := h
      obtain ⟨hthird, rfl⟩ := (alphabet.value_eq_some_iff _ _).mp hvalue
      obtain ⟨hfourth, rfl⟩ := (alphabet.value_eq_some_iff _ _).mp hvalue'
      rw [← Option.some.inj hbytes, encode, sextet0_bytes hfirst hsecond,
        sextet1_bytes hfirst hsecond hthird, sextet2_bytes hthird hfourth,
        sextet3_bytes hfourth, ih hdecoded]
  | case3 text hnil hcons =>
    rw [decode] at h
    · cases h
    · exact hnil
    · exact hcons

/-- The codec of an alphabet. -/
def codec : Codec where
  encode bytes := String.ofList (alphabet.encode bytes)
  decode text := alphabet.decode text.toList
  decode_eq_some_iff text bytes := by
    constructor
    · intro h
      rw [alphabet.encode_of_decode h, String.ofList_toList]
    · intro h
      rw [h, String.toList_ofList, alphabet.decode_encode]
  length_encode bytes := by
    rw [String.length_ofList, alphabet.length_encode]
  mem_encode bytes := by
    rw [String.toList_ofList]
    exact alphabet.mem_encode bytes

end Alphabet

/-! ### The standard alphabet -/

/-- `A` to `Z`, `a` to `z`, `0` to `9`, `+` and `/`. -/
def symbol (number : ℕ) : Char :=
  if number < 26 then Char.ofNat (number + 65)
  else if number < 52 then Char.ofNat (number + 71)
  else if number < 62 then Char.ofNat (number - 4)
  else if number = 62 then '+' else '/'

def value (char : Char) : Option ℕ := (List.range 64).find? (symbol · = char)

theorem symbol_injective {number number' : ℕ} (h : number < 64) (h' : number' < 64)
    (heq : symbol number = symbol number') : number = number' := by
  have hall : ∀ number number' : Fin 64, symbol number = symbol number' → number = number' := by
    decide
  exact congrArg Fin.val (hall ⟨number, h⟩ ⟨number', h'⟩ heq)

/-- The alphabet of RFC 4648. -/
def standard : Alphabet where
  symbol := symbol
  value := value
  value_eq_some_iff char number := by
    constructor
    · intro h
      have hmem := List.mem_of_find?_eq_some h
      have hsymbol := List.find?_some h
      exact ⟨List.mem_range.mp hmem, by simpa using hsymbol⟩
    · rintro ⟨hlt, rfl⟩
      rw [value]
      cases hfound : (List.range 64).find? (symbol · = symbol number) with
      | none =>
        have hnone := List.find?_eq_none.mp hfound number (List.mem_range.mpr hlt)
        simp at hnone
      | some other =>
        have hother := List.mem_range.mp (List.mem_of_find?_eq_some hfound)
        have hsymbol : symbol other = symbol number := by simpa using List.find?_some hfound
        rw [symbol_injective hother hlt hsymbol]
  value_pad := by decide
  mem_symbol := by decide

end Ghostbro.Base64
