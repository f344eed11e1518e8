import Bluetape.Base.Radix

/-!
# Base64

Three bytes are four digits of base 64; a last group of one or two bytes is
padded.  Decoding reads groups of four characters and drops the bits that the
padding stands for, so that a canonical text is one that encoding its bytes
gives back.
-/

namespace Bluetape
namespace Base
namespace Base64

/-- The 64 digits. -/
def alphabet : Alphabet 64 where
  symbols := text "ABCDEFGHIJKLMNOPQRSTUVWXYZabcdefghijklmnopqrstuvwxyz0123456789+/"
  length_symbols := by decide
  nodup := by decide

/-- The padding character. -/
def pad : CodePoint :=
  .scalar '='

/-- The number of a group of bytes. -/
def ofBytes (bs : Bytes) : Nat :=
  readDigits (bs.map UInt8.toFin)

/-- The bytes of a number. -/
def toBytes (w n : Nat) : Bytes :=
  (writeDigits w n : List (Fin 256)).map UInt8.ofFin

/-- The characters of a number. -/
def spell (w n : Nat) : Text :=
  alphabet.spell (writeDigits w n)

/-- The number that some characters spell. -/
def unspell (t : Text) : Option Nat :=
  (alphabet.unspell t).map readDigits

/-- `base64.b64encode` -/
def encode : Bytes → Text
  | a :: b :: c :: rest => spell 4 (ofBytes [a, b, c]) ++ encode rest
  | [a, b] => spell 3 (ofBytes [a, b] * 4) ++ [pad]
  | [a] => spell 2 (ofBytes [a] * 16) ++ [pad, pad]
  | [] => []

/-- `base64.b64decode` with validation, none for its exception -/
def decode : Text → Option Bytes
  | w :: x :: y :: z :: rest =>
      if rest = [] ∧ z = pad then
        if y = pad then (unspell [w, x]).map fun n => toBytes 1 (n / 16)
        else (unspell [w, x, y]).map fun n => toBytes 2 (n / 4)
      else do
        let n ← unspell [w, x, y, z]
        return toBytes 3 n ++ (← decode rest)
  | [] => some []
  | _ => none

theorem toBytes_ofBytes
    (bs : Bytes) :
    toBytes bs.length (ofBytes bs) = bs := by
  have h := writeDigits_readDigits (bs.map UInt8.toFin)
  rw [List.length_map] at h
  rw [toBytes, ofBytes, h, List.map_map]
  exact List.map_id' bs

theorem ofBytes_lt
    (bs : Bytes) :
    ofBytes bs < 256 ^ bs.length := by
  have h := readDigits_lt (bs.map UInt8.toFin)
  rwa [List.length_map] at h

theorem unspell_spell
    {w n : Nat}
    (hn : n < 64 ^ w) :
    unspell (spell w n) = some n := by
  rw [unspell, spell, alphabet.unspell_eq_some_iff.mpr rfl, Option.map_some,
    readDigits_writeDigits hn]

theorem length_spell
    (w n : Nat) :
    (spell w n).length = w := by
  simp [spell, Alphabet.spell]

set_option maxRecDepth 50000 in
theorem pad_notMem_spell
    (w n : Nat) :
    pad ∉ spell w n := by
  have hsymbol : ∀ d, alphabet.symbol d ≠ pad := by
    decide
  intro h
  obtain ⟨d, -, hd⟩ := List.mem_map.mp h
  exact hsymbol d hd

theorem mem_spell
    {w n : Nat} {p : CodePoint}
    (h : p ∈ spell w n) :
    ∃ d, p = alphabet.symbol d := by
  obtain ⟨d, -, hd⟩ := List.mem_map.mp h
  exact ⟨d, hd.symm⟩

/-- The characters of a Base64 text. -/
theorem mem_encode
    {bs : Bytes} {p : CodePoint}
    (h : p ∈ encode bs) :
    p = pad ∨ ∃ d, p = alphabet.symbol d := by
  induction bs using encode.induct with
  | case1 a b c rest ih =>
      rcases List.mem_append.mp h with h | h
      · exact .inr (mem_spell h)
      · exact ih h
  | case2 a b =>
      rcases List.mem_append.mp h with h | h
      · exact .inr (mem_spell h)
      · exact .inl (List.mem_singleton.mp h)
  | case3 a =>
      rcases List.mem_append.mp h with h | h
      · exact .inr (mem_spell h)
      · exact .inl (by simpa using h)
  | case4 =>
      cases h

/-- **Size**: four characters for every group of three bytes, the last one padded. -/
theorem length_encode
    (bs : Bytes) :
    (encode bs).length = 4 * ((bs.length + 2) / 3) := by
  induction bs using encode.induct with
  | case1 a b c rest ih =>
      simp only [encode, List.length_append, length_spell, List.length_cons, ih]
      omega
  | case2 a b =>
      simp [encode, length_spell]
  | case3 a =>
      simp [encode, length_spell]
  | case4 =>
      rfl

/-- **Decoding what was encoded** gives the bytes. -/
theorem decode_encode
    (bs : Bytes) :
    decode (encode bs) = some bs := by
  induction bs using encode.induct with
  | case1 a b c rest ih =>
      have hlt := ofBytes_lt [a, b, c]
      have hspell := unspell_spell (w := 4) (n := ofBytes [a, b, c]) (by simpa using hlt)
      have hpad := pad_notMem_spell 4 (ofBytes [a, b, c])
      obtain ⟨w, chars, hchars⟩ :=
        List.exists_cons_of_length_eq_add_one (length_spell 4 (ofBytes [a, b, c]))
      obtain ⟨x, y, z, rfl⟩ := List.length_eq_three.mp (by
        have := length_spell 4 (ofBytes [a, b, c])
        rw [hchars] at this
        simpa using this)
      rw [hchars] at hspell hpad
      have hz : ¬(encode rest = [] ∧ z = pad) := fun h => hpad (by simp [h.2])
      have hbytes : toBytes 3 (ofBytes [a, b, c]) = [a, b, c] := toBytes_ofBytes [a, b, c]
      rw [encode, hchars, List.cons_append, List.cons_append, List.cons_append, List.cons_append,
        List.nil_append, decode, if_neg hz, hspell, ih]
      simp [hbytes]
  | case2 a b =>
      have hlt := ofBytes_lt [a, b]
      have hspell := unspell_spell (w := 3) (n := ofBytes [a, b] * 4) (by simp at hlt; omega)
      have hpad := pad_notMem_spell 3 (ofBytes [a, b] * 4)
      obtain ⟨w, x, y, hchars⟩ := List.length_eq_three.mp (length_spell 3 (ofBytes [a, b] * 4))
      rw [hchars] at hspell hpad
      have hy : y ≠ pad := fun h => hpad (by simp [h])
      have hbytes : toBytes 2 (ofBytes [a, b]) = [a, b] := toBytes_ofBytes [a, b]
      rw [encode, hchars, List.cons_append, List.cons_append, List.cons_append, List.nil_append,
        decode, if_pos ⟨rfl, rfl⟩, if_neg hy, hspell]
      simp [hbytes]
  | case3 a =>
      have hlt := ofBytes_lt [a]
      have hspell := unspell_spell (w := 2) (n := ofBytes [a] * 16) (by simp at hlt; omega)
      obtain ⟨w, x, hchars⟩ := List.length_eq_two.mp (length_spell 2 (ofBytes [a] * 16))
      rw [hchars] at hspell
      have hbytes : toBytes 1 (ofBytes [a]) = [a] := toBytes_ofBytes [a]
      rw [encode, hchars, List.cons_append, List.cons_append, List.nil_append, decode,
        if_pos ⟨rfl, rfl⟩, if_pos rfl, hspell]
      simp [hbytes]
  | case4 =>
      rfl

end Base64
end Base
end Bluetape
