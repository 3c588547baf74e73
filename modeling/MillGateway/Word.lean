/-! The least and the greatest integers that machine words hold. -/

namespace MillGateway.Word

def maxUInt32 : Nat := 4294967295

def minInt32 : Int := -2147483648

def maxInt32 : Int := 2147483647

def maxUInt64 : Nat := 18446744073709551615

def minInt64 : Int := -9223372036854775808

def maxInt64 : Int := 9223372036854775807

end MillGateway.Word
