import Mathlib.Tactic

/-!
# Bytes and little-endian words

Buffers are lists of bytes; the 32-bit accesses of the driver read and write
four consecutive bytes, lowest byte first.  A byte past the end of a buffer
reads as zero, which is what a zeroed allocation holds.
-/

namespace VcuDriver

abbrev Byte := BitVec 8

abbrev Word := BitVec 32

def wordOfBytes (b₀ b₁ b₂ b₃ : Byte) : Word :=
  BitVec.ofNat 32
    (b₀.toNat + 256 * b₁.toNat + 65536 * b₂.toNat + 16777216 * b₃.toNat)

def wordByte (word : Word) (k : ℕ) : Byte :=
  BitVec.ofNat 8 (word.toNat / 256 ^ k)

def wordBytes (word : Word) : List Byte :=
  [wordByte word 0, wordByte word 1, wordByte word 2, wordByte word 3]

def byteAt (data : List Byte) (offset : ℕ) : Byte :=
  data.getD offset 0

def wordAt (data : List Byte) (offset : ℕ) : Word :=
  wordOfBytes (byteAt data offset) (byteAt data (offset + 1))
    (byteAt data (offset + 2)) (byteAt data (offset + 3))

def pokeWord (data : List Byte) (offset : ℕ) (word : Word) : List Byte :=
  (((data.set offset (wordByte word 0)).set (offset + 1) (wordByte word 1)).set
    (offset + 2) (wordByte word 2)).set (offset + 3) (wordByte word 3)

@[simp] theorem wordBytes_length (word : Word) : (wordBytes word).length = 4 :=
  rfl

theorem wordOfBytes_toNat (b₀ b₁ b₂ b₃ : Byte) :
    (wordOfBytes b₀ b₁ b₂ b₃).toNat =
      b₀.toNat + 256 * b₁.toNat + 65536 * b₂.toNat + 16777216 * b₃.toNat := by
  have h₀ := b₀.isLt
  have h₁ := b₁.isLt
  have h₂ := b₂.isLt
  have h₃ := b₃.isLt
  rw [wordOfBytes, BitVec.toNat_ofNat]
  exact Nat.mod_eq_of_lt (by omega)

/-- The four bytes of a word determine it. -/
theorem wordOfBytes_wordByte (word : Word) :
    wordOfBytes (wordByte word 0) (wordByte word 1) (wordByte word 2)
      (wordByte word 3) = word := by
  apply BitVec.eq_of_toNat_eq
  have hword := word.isLt
  rw [wordOfBytes_toNat]
  simp only [wordByte, BitVec.toNat_ofNat]
  omega

theorem wordByte_wordOfBytes (b : Fin 4 → Byte) (k : Fin 4) :
    wordByte (wordOfBytes (b 0) (b 1) (b 2) (b 3)) k = b k := by
  apply BitVec.eq_of_toNat_eq
  have h₀ := (b 0).isLt
  have h₁ := (b 1).isLt
  have h₂ := (b 2).isLt
  have h₃ := (b 3).isLt
  simp only [wordByte, BitVec.toNat_ofNat, wordOfBytes_toNat]
  match k with
  | 0 => change _ / 256 ^ 0 % 2 ^ 8 = _; omega
  | 1 => change _ / 256 ^ 1 % 2 ^ 8 = _; omega
  | 2 => change _ / 256 ^ 2 % 2 ^ 8 = _; omega
  | 3 => change _ / 256 ^ 3 % 2 ^ 8 = _; omega

theorem wordByte_wordAt (data : List Byte) (offset : ℕ) {k : ℕ} (hk : k < 4) :
    wordByte (wordAt data offset) k = byteAt data (offset + k) :=
  wordByte_wordOfBytes (fun i => byteAt data (offset + i)) ⟨k, hk⟩

/-- Words agree when their bytes do. -/
theorem wordAt_congr
    {data data' : List Byte} {offset offset' : ℕ}
    (hbytes : ∀ k < 4, byteAt data (offset + k) = byteAt data' (offset' + k)) :
    wordAt data offset = wordAt data' offset' := by
  have h₀ := hbytes 0 (by omega)
  have h₁ := hbytes 1 (by omega)
  have h₂ := hbytes 2 (by omega)
  have h₃ := hbytes 3 (by omega)
  rw [Nat.add_zero, Nat.add_zero] at h₀
  rw [wordAt, wordAt, h₀, h₁, h₂, h₃]

theorem byteAt_append_left
    (data rest : List Byte) {offset : ℕ} (hoffset : offset < data.length) :
    byteAt (data ++ rest) offset = byteAt data offset := by
  simp [byteAt, List.getElem?_append_left hoffset]

theorem byteAt_append_right (data rest : List Byte) (offset : ℕ) :
    byteAt (data ++ rest) (data.length + offset) = byteAt rest offset := by
  simp [byteAt, List.getElem?_append_right]

theorem wordAt_append_right (data rest : List Byte) (offset : ℕ) :
    wordAt (data ++ rest) (data.length + offset) = wordAt rest offset :=
  wordAt_congr fun k _ => by
    rw [Nat.add_assoc]
    exact byteAt_append_right data rest (offset + k)

theorem wordAt_drop (data : List Byte) (skip offset : ℕ) :
    wordAt (data.drop skip) offset = wordAt data (skip + offset) :=
  wordAt_congr fun k _ => by simp [byteAt, Nat.add_assoc]

/-- Reading back a word which was serialized at the front of a buffer. -/
@[simp] theorem wordAt_wordBytes_append (word : Word) (rest : List Byte) :
    wordAt (wordBytes word ++ rest) 0 = word :=
  wordOfBytes_wordByte word

@[simp] theorem pokeWord_length (data : List Byte) (offset : ℕ) (word : Word) :
    (pokeWord data offset word).length = data.length := by
  simp [pokeWord]

/-- A stored word reads back. -/
theorem wordAt_pokeWord_self
    {data : List Byte} {offset : ℕ} (word : Word)
    (hoffset : offset + 4 ≤ data.length) :
    wordAt (pokeWord data offset word) offset = word := by
  have h₀ : offset < data.length := by omega
  have h₁ : offset + 1 < data.length := by omega
  have h₂ : offset + 2 < data.length := by omega
  have h₃ : offset + 3 < data.length := by omega
  have hword := wordOfBytes_wordByte word
  simp [wordAt, pokeWord, byteAt, h₀, h₁, h₂, h₃, hword]

/-- A store leaves the words before and after it alone. -/
theorem wordAt_pokeWord_of_disjoint
    {data : List Byte} {offset other : ℕ} (word : Word)
    (hdisjoint : other + 4 ≤ offset ∨ offset + 4 ≤ other) :
    wordAt (pokeWord data offset word) other = wordAt data other := by
  apply wordAt_congr
  intro k hk
  have h₀ : ¬ offset = other + k := by omega
  have h₁ : ¬ offset + 1 = other + k := by omega
  have h₂ : ¬ offset + 2 = other + k := by omega
  have h₃ : ¬ offset + 3 = other + k := by omega
  simp [pokeWord, byteAt, h₀, h₁, h₂, h₃]

end VcuDriver
