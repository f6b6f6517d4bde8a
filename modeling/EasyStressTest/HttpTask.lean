import Mathlib.Data.BitVec
import EasyStressTest.Define
import EasyStressTest.Search

/-! The reply data of `http_task.h` and the end detector of `http_on_recv`. -/

namespace EasyStressTest.HttpTask
open Define Search

/-- `http_data`, which `http_on_connected_successful` constructs in the `reversed` field. -/
structure HttpData where
  strHtml : List UInt8
  totalLen : Int
  deriving DecidableEq, Repr

def HttpData.fresh : HttpData := ⟨[], 0⟩

def htmlEnd : List UInt8 := bytes "</html>"
def htmlEndUpper : List UInt8 := bytes "</HTML>"
def blankLine : List UInt8 := bytes "\r\n\r\n"

/-- Where the search begins: `total_len - 40` as a `stl_size_t`, or 0 when its low 32 bits
are negative as an `int`. -/
def searchOffset (sizeBits : Nat) (totalLen : Int) : Nat :=
  let offset := BitVec.ofInt sizeBits (totalLen - 40)
  if (offset.setWidth 32).toInt < 0 then 0 else offset.toNat

/-- The `(int)` cast keeps what fits. -/
theorem signed_low {sizeBits : Nat} (wide : 32 ≤ sizeBits) {value : Int} (low : -2 ^ 31 ≤ value)
    (high : value < 2 ^ 31) : ((BitVec.ofInt sizeBits value).setWidth 32).toInt = value := by
  have power : ((2 ^ 32 : Nat) : Int) ∣ ((2 ^ sizeBits : Nat) : Int) :=
    Int.natCast_dvd_natCast.mpr (Nat.pow_dvd_pow 2 wide)
  have positive : (0 : Int) < ((2 ^ sizeBits : Nat) : Int) := Int.natCast_pos.mpr (Nat.two_pow_pos sizeBits)
  have rest : (((value % ((2 ^ sizeBits : Nat) : Int)).toNat : Nat) : Int) =
      value % ((2 ^ sizeBits : Nat) : Int) := Int.toNat_of_nonneg (Int.emod_nonneg _ (by omega))
  rw [BitVec.toInt_setWidth, BitVec.toNat_ofInt, rest, Int.bmod_def, Int.emod_emod_of_dvd _ power]
  omega

/-- Below 2 GiB the search begins 40 bytes before the end. -/
theorem searchOffset_eq {sizeBits size : Nat} (wide : 32 ≤ sizeBits) (small : size < 2 ^ 31 + 40) :
    searchOffset sizeBits size = size - 40 := by
  have signed : ((BitVec.ofInt sizeBits ((size : Int) - 40)).setWidth 32).toInt = (size : Int) - 40 :=
    signed_low wide (by omega) (by omega)
  rw [searchOffset]
  simp only [signed]
  by_cases short : (size : Int) - 40 < 0
  · rw [if_pos short]
    omega
  · have natural : (size : Int) - 40 = ((size - 40 : Nat) : Int) := by omega
    have room : size - 40 < 2 ^ sizeBits := by
      calc
        _ < 2 ^ 32 := by omega
        _ ≤ 2 ^ sizeBits := Nat.pow_le_pow_right (by omega) wide
    rw [if_neg short, natural, BitVec.ofInt_natCast, BitVec.toNat_ofNat, Nat.mod_eq_of_lt room]

/-- The position of the closing tag: the lower-case tag when there is one. -/
def tagFrom (strHtml : List UInt8) (offset : Nat) : Option Nat :=
  match find htmlEnd strHtml offset with
  | some pos => some pos
  | none => find htmlEndUpper strHtml offset

/-- Whether `http_on_recv` reaches its `do_close`. -/
def endFound (strHtml : List UInt8) (offset : Nat) : Bool :=
  match tagFrom strHtml offset with
  | some pos => (find blankLine strHtml pos).isSome
  | none => false

/-- `http_on_recv` on the `n` received bytes at the front of `base`: the new reply data, and
whether `do_close` is called. -/
def HttpData.onRecv (sizeBits : Nat) (httpData : HttpData) (base : List UInt8) (n : Nat) :
    HttpData × Bool :=
  let strHtml := httpData.strHtml ++ base.take n
  let totalLen := httpData.totalLen + n
  (⟨strHtml, totalLen⟩, endFound strHtml (searchOffset sizeBits totalLen))

end EasyStressTest.HttpTask
