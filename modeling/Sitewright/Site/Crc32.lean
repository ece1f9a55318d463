/-!
The checksum of archives: the remainder of the bytes, taken as a polynomial over two elements, by
the polynomial `0x04C11DB7`, with the bits of every byte in reverse order.
-/

namespace Sitewright.Crc32

def shiftBit (s : UInt32) : UInt32 :=
  if s &&& 1 == 1 then (s >>> 1) ^^^ 0xEDB88320 else s >>> 1

def shiftBits : Nat → UInt32 → UInt32
  | 0, s => s
  | n + 1, s => shiftBits n (shiftBit s)

def step (s : UInt32) (b : UInt8) : UInt32 := shiftBits 8 (s ^^^ b.toUInt32)

def checksum (bytes : List UInt8) : UInt32 := bytes.foldl step 0xFFFFFFFF ^^^ 0xFFFFFFFF

end Sitewright.Crc32
