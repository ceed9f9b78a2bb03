import OneDriver.CInt

set_option autoImplicit false

namespace OneDriver

-- Two-digit binary coded decimal, with the argument and result types of the
-- kernel's conversions: any unsigned in, one byte out, and back.
def bin2bcd (val : Int) : BitVec 8 := BitVec.ofNat 8 (uint32 val / 10 * 16 + uint32 val % 10)

def bcd2bin (val : BitVec 8) : Int := val.toNat % 16 + val.toNat / 16 * 10

theorem bin2bcd_toNat (val : Int) (low : 0 ≤ val) (high : val < 100) :
    (bin2bcd val).toNat = val.toNat / 10 * 16 + val.toNat % 10 := by
  have same : uint32 val = val.toNat := by
    unfold uint32
    omega
  rw [bin2bcd, BitVec.toNat_ofNat, same]
  omega

theorem bcd2bin_bin2bcd (val : Int) (low : 0 ≤ val) (high : val < 100) : bcd2bin (bin2bcd val) = val := by
  have encoded := bin2bcd_toNat val low high
  unfold bcd2bin
  omega

end OneDriver
