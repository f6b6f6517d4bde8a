import Mathlib.Order.Basic

/-! The constants of `define.h`, the libuv status codes that the callbacks compare with, and
the two widths that the platform fixes. -/

namespace EasyStressTest.Define

def maxTaskCount : Nat := 10
def deaultThreadNum : Nat := 3
def deaultTaskAdd : Nat := max (maxTaskCount / 10) 1
def checkDeleteCount : Nat := max (maxTaskCount * deaultThreadNum / 10) 1

/-- Seconds. -/
def timeoutForRelease : Int := max (maxTaskCount / 10000 : Nat) 1

def uvEof : Int := -4095
def uvEconnreset : Int := -4077
def uvEcanceled : Int := -4081
def uvEinval : Int := -4071

/-- Widths in bits of `stl_size_t` and of `long`. -/
structure Platform where
  sizeBits : Nat
  longBits : Nat

/-- Bytes of a string literal. -/
def bytes (text : String) : List UInt8 := text.toList.map fun char => char.toNat.toUInt8

end EasyStressTest.Define
