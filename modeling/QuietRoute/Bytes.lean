import Mathlib.Data.UInt

/-! `std::string`: a sequence of bytes of any value. -/
namespace QuietRoute

abbrev Bytes := List UInt8

/-- The bytes of an ASCII literal. -/
def ascii (s : String) : Bytes := s.toList.map fun c => UInt8.ofNat c.toNat

end QuietRoute
