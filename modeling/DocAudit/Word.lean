/- The ranges of 64-bit words. Two to the power 63 is 9223372036854775808, and two to the power 64 is
   twice that. -/
namespace DocAudit
namespace Word

def leastSigned : Int := -9223372036854775808
def greatestSigned : Int := 9223372036854775807
def greatestUnsigned : Nat := 18446744073709551615

def IsSigned (n : Int) : Prop := leastSigned ≤ n ∧ n ≤ greatestSigned

instance (n : Int) : Decidable (IsSigned n) :=
  inferInstanceAs (Decidable (leastSigned ≤ n ∧ n ≤ greatestSigned))

end Word
end DocAudit
