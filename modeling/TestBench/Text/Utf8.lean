/-
  UTF-8: characters as bytes and back.

  1. `Utf8.encode` writes each character in one to four bytes.
  2. Decoding is one pass over the bytes with at most one character under construction (`Partial`).
     A byte that cannot continue it ends the attempt and is then read as a first byte itself, so a
     broken sequence counts once however many of its bytes were good.
  3. `Utf8.decode?` refuses broken input; `Utf8.decodeLossy` puts U+FFFD for each broken sequence.
-/
namespace TestBench.Text.Utf8

abbrev Bytes := List UInt8

/-! ## Encoding -/

def byte (n : Nat) : UInt8 := UInt8.ofNat n

/-- The bytes of one character. -/
def encodeChar (c : Char) : Bytes :=
  let n := c.toNat
  if n < 0x80 then [byte n]
  else if n < 0x800 then [byte (0xC0 + n / 64), byte (0x80 + n % 64)]
  else if n < 0x10000 then
    [byte (0xE0 + n / 4096), byte (0x80 + n / 64 % 64), byte (0x80 + n % 64)]
  else
    [byte (0xF0 + n / 262144), byte (0x80 + n / 4096 % 64), byte (0x80 + n / 64 % 64),
      byte (0x80 + n % 64)]

def encode (s : List Char) : Bytes := s.flatMap encodeChar

/-! ## Decoding -/

/-- A character under construction: the bits read so far, how many bytes are missing, and the
    range of the next one. -/
structure Partial where
  bits : Nat
  missing : Nat
  low : Nat
  high : Nat

/-- What a first byte begins. -/
inductive Start where
  | whole (c : Char)
  | more (p : Partial)
  | broken

def start (b : UInt8) : Start :=
  let n := b.toNat
  if n < 0x80 then .whole (Char.ofNat n)
  else if n < 0xC2 then .broken
  else if n < 0xE0 then .more ⟨n - 0xC0, 1, 0x80, 0xBF⟩
  else if n < 0xF0 then
    .more ⟨n - 0xE0, 2, if n = 0xE0 then 0xA0 else 0x80, if n = 0xED then 0x9F else 0xBF⟩
  else if n < 0xF5 then
    .more ⟨n - 0xF0, 3, if n = 0xF0 then 0x90 else 0x80, if n = 0xF4 then 0x8F else 0xBF⟩
  else .broken

/-- Whether a byte can continue the character under construction. -/
def Partial.takes (p : Partial) (b : UInt8) : Bool := p.low ≤ b.toNat && b.toNat ≤ p.high

/-- The bits of the character under construction with those of one more byte. -/
def Partial.add (p : Partial) (b : UInt8) : Nat := p.bits * 64 + (b.toNat - 0x80)

/-- The characters of the bytes, `none` for each broken sequence. -/
def decodeFrom : Option Partial → Bytes → List (Option Char)
  | none, [] => []
  | some _, [] => [none]
  | none, b :: rest =>
    match start b with
    | .whole c => some c :: decodeFrom none rest
    | .more p => decodeFrom (some p) rest
    | .broken => none :: decodeFrom none rest
  | some p, b :: rest =>
    if p.takes b then
      if p.missing = 1 then some (Char.ofNat (p.add b)) :: decodeFrom none rest
      else decodeFrom (some ⟨p.add b, p.missing - 1, 0x80, 0xBF⟩) rest
    else
      none :: match start b with
        | .whole c => some c :: decodeFrom none rest
        | .more p => decodeFrom (some p) rest
        | .broken => none :: decodeFrom none rest

/-- The characters of well-formed bytes. -/
def decode? (bytes : Bytes) : Option (List Char) := (decodeFrom none bytes).mapM id

/-- The characters of any bytes, U+FFFD for each broken sequence. -/
def decodeLossy (bytes : Bytes) : List Char :=
  (decodeFrom none bytes).map (·.getD (Char.ofNat 0xFFFD))

theorem decodeLossy_of_decode? {bytes : Bytes} {s : List Char} (h : decode? bytes = some s) :
    decodeLossy bytes = s := by
  unfold decode? at h
  unfold decodeLossy
  generalize decodeFrom none bytes = cs at h
  induction cs generalizing s with
  | nil => simpa using h.symm
  | cons c cs ih =>
    cases c with
    | none => simp at h
    | some c =>
      obtain ⟨r, hr, rfl⟩ : ∃ r, cs.mapM id = some r ∧ c :: r = s := by
        simpa [List.mapM_cons, Option.bind_eq_some_iff] using h
      simp [ih hr]

end TestBench.Text.Utf8
