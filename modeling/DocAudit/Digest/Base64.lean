/- Base64: three bytes make four characters, and a group that is short at the end is filled up with
   equals signs. -/
namespace DocAudit
namespace Base64

def digit (n : Nat) : Char :=
  if n < 26 then Char.ofNat ('A'.toNat + n)
  else if n < 52 then Char.ofNat ('a'.toNat + (n - 26))
  else if n < 62 then Char.ofNat ('0'.toNat + (n - 52))
  else if n = 62 then '+'
  else '/'

def digitAt (n shift : Nat) : Char := digit (n / Nat.pow 2 shift % 64)

def encode : List UInt8 → List Char
  | [] => []
  | [x] =>
    let n := x.toNat * 0x10000
    [digitAt n 18, digitAt n 12, '=', '=']
  | [x, y] =>
    let n := x.toNat * 0x10000 + y.toNat * 0x100
    [digitAt n 18, digitAt n 12, digitAt n 6, '=']
  | x :: y :: z :: rest =>
    let n := x.toNat * 0x10000 + y.toNat * 0x100 + z.toNat
    digitAt n 18 :: digitAt n 12 :: digitAt n 6 :: digitAt n 0 :: encode rest

end Base64
end DocAudit
