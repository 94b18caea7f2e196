namespace CportNode

abbrev Bytes := List UInt8

namespace Bytes

def ofWord16 (w : UInt16) : Bytes :=
  [UInt8.ofNat w.toNat, UInt8.ofNat (w.toNat / 256)]

def ofWord32 (w : UInt32) : Bytes :=
  ofWord16 (UInt16.ofNat w.toNat) ++ ofWord16 (UInt16.ofNat (w.toNat / 65536))

def ofWord64 (w : UInt64) : Bytes :=
  ofWord32 (UInt32.ofNat w.toNat) ++ ofWord32 (UInt32.ofNat (w.toNat / 4294967296))

def word16 (lo hi : UInt8) : UInt16 :=
  UInt16.ofNat (lo.toNat + 256 * hi.toNat)

def word32 (lo hi : UInt16) : UInt32 :=
  UInt32.ofNat (lo.toNat + 65536 * hi.toNat)

def word64 (lo hi : UInt32) : UInt64 :=
  UInt64.ofNat (lo.toNat + 4294967296 * hi.toNat)

def takeWord8 : Bytes → Option (UInt8 × Bytes)
  | b :: rest => some (b, rest)
  | [] => none

def takeWord16 : Bytes → Option (UInt16 × Bytes)
  | a :: b :: rest => some (word16 a b, rest)
  | _ => none

def takeWord32 : Bytes → Option (UInt32 × Bytes)
  | a :: b :: c :: d :: rest => some (word32 (word16 a b) (word16 c d), rest)
  | _ => none

def takeWord64 (bytes : Bytes) : Option (UInt64 × Bytes) := do
  let (lo, rest) ← takeWord32 bytes
  let (hi, rest) ← takeWord32 rest
  return (word64 lo hi, rest)

def padTo (width : Nat) (bytes : Bytes) : Bytes :=
  let kept := bytes.take width
  kept ++ List.replicate (width - kept.length) 0

def ofText (text : String) : Bytes :=
  text.toUTF8.toList

def toText? (bytes : Bytes) : Option String :=
  String.fromUTF8? ⟨bytes.toArray⟩

theorem word16_split (w : UInt16) :
    word16 (UInt8.ofNat w.toNat) (UInt8.ofNat (w.toNat / 256)) = w := by
  have := w.toNat_lt
  apply UInt16.toNat_inj.mp
  simp only [word16, UInt16.toNat_ofNat', UInt8.toNat_ofNat']
  omega

theorem word32_split (w : UInt32) :
    word32 (UInt16.ofNat w.toNat) (UInt16.ofNat (w.toNat / 65536)) = w := by
  have := w.toNat_lt
  apply UInt32.toNat_inj.mp
  simp only [word32, UInt32.toNat_ofNat', UInt16.toNat_ofNat']
  omega

theorem word64_split (w : UInt64) :
    word64 (UInt32.ofNat w.toNat) (UInt32.ofNat (w.toNat / 4294967296)) = w := by
  have := w.toNat_lt
  apply UInt64.toNat_inj.mp
  simp only [word64, UInt64.toNat_ofNat', UInt32.toNat_ofNat']
  omega

@[simp] theorem ofWord16_word16 (lo hi : UInt8) : ofWord16 (word16 lo hi) = [lo, hi] := by
  have := lo.toNat_lt
  have := hi.toNat_lt
  have whole : (word16 lo hi).toNat = lo.toNat + 256 * hi.toNat := by
    rw [word16, UInt16.toNat_ofNat']
    omega
  rw [ofWord16, whole]
  congr 2
  · apply UInt8.toNat_inj.mp
    rw [UInt8.toNat_ofNat']
    omega
  · apply UInt8.toNat_inj.mp
    rw [UInt8.toNat_ofNat']
    omega

@[simp] theorem ofWord32_word32 (lo hi : UInt16) :
    ofWord32 (word32 lo hi) = ofWord16 lo ++ ofWord16 hi := by
  have := lo.toNat_lt
  have := hi.toNat_lt
  have whole : (word32 lo hi).toNat = lo.toNat + 65536 * hi.toNat := by
    rw [word32, UInt32.toNat_ofNat']
    omega
  rw [ofWord32, whole]
  congr 2
  · apply UInt16.toNat_inj.mp
    rw [UInt16.toNat_ofNat']
    omega
  · apply UInt16.toNat_inj.mp
    rw [UInt16.toNat_ofNat']
    omega

@[simp] theorem takeWord16_ofWord16 (w : UInt16) (rest : Bytes) :
    takeWord16 (ofWord16 w ++ rest) = some (w, rest) := by
  simp only [ofWord16, takeWord16, List.cons_append, List.nil_append, word16_split]

@[simp] theorem takeWord32_ofWord32 (w : UInt32) (rest : Bytes) :
    takeWord32 (ofWord32 w ++ rest) = some (w, rest) := by
  simp only [ofWord32, ofWord16, takeWord32, List.cons_append, List.nil_append, word16_split,
    word32_split]

@[simp] theorem takeWord64_ofWord64 (w : UInt64) (rest : Bytes) :
    takeWord64 (ofWord64 w ++ rest) = some (w, rest) := by
  simp only [ofWord64, takeWord64, List.append_assoc, takeWord32_ofWord32, Option.bind_eq_bind,
    Option.bind_some, Option.pure_def, word64_split]

@[simp] theorem length_padTo (width : Nat) (bytes : Bytes) :
    (padTo width bytes).length = width := by
  simp only [padTo, List.length_append, List.length_take, List.length_replicate]
  omega

end Bytes

end CportNode
