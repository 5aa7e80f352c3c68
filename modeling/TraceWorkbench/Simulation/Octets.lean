import TraceWorkbench.Text.Utf8

set_option autoImplicit false

/-!
# Octets as characters

A shell handles bytes, not characters. Inside a shell each byte is the character with its number;
at the borders bytes are turned into such characters and back.
-/
namespace TraceWorkbench.Simulation

def ofBytes (bs : Bytes) : List Char := bs.map fun b => Char.ofNat b.toNat

def toBytes (cs : List Char) : Bytes := cs.map fun c => UInt8.ofNat c.toNat

def octets (s : String) : String := String.ofList (ofBytes s.utf8Bytes)

/-- The text of octets; what is not UTF-8 is replaced. -/
def ofOctets (s : String) : String := String.ofBytesLossy (toBytes s.toList)

theorem toBytes_ofBytes (bs : Bytes) : toBytes (ofBytes bs) = bs := by
  have h (b : UInt8) : UInt8.ofNat (Char.ofNat b.toNat).toNat = b := by
    have hb : b.toNat < 256 := b.toNat_lt
    have hv : b.toNat.isValidChar := Or.inl (by omega)
    rw [Char.ofNat, dif_pos hv]
    exact UInt8.ofNat_toNat
  simp [toBytes, ofBytes, Function.comp_def, h]

end TraceWorkbench.Simulation
