/-!
IP addresses of both families. A host is identified by its canonical address, in which an IPv4
address mapped into IPv6 is the IPv4 address itself.
-/

namespace Fanout

inductive Ip where
  | v4 (a b c d : UInt8)
  | v6 (a b c d e f g h : UInt16)
  deriving DecidableEq, Repr

namespace Ip

def unspecified : Ip :=
  .v4 0 0 0 0

def loopback : Ip :=
  .v4 127 0 0 1

def unspecifiedV6 : Ip :=
  .v6 0 0 0 0 0 0 0 0

def loopbackV6 : Ip :=
  .v6 0 0 0 0 0 0 0 1

def isUnspecified (ip : Ip) : Bool :=
  ip == unspecified || ip == unspecifiedV6

def octets (g : UInt16) : UInt8 × UInt8 :=
  ((g >>> 8).toUInt8, g.toUInt8)

def groupOf (hi lo : UInt8) : UInt16 :=
  hi.toUInt16 <<< 8 ||| lo.toUInt16

def mapped? : Ip → Option Ip
  | .v4 .. => none
  | .v6 a b c d e f g h =>
      if a = 0 ∧ b = 0 ∧ c = 0 ∧ d = 0 ∧ e = 0 ∧ f = 0xffff then
        some (.v4 (octets g).1 (octets g).2 (octets h).1 (octets h).2)
      else none

def canonical (ip : Ip) : Ip :=
  ip.mapped?.getD ip

def mapped : Ip → Ip
  | .v4 a b c d => .v6 0 0 0 0 0 0xffff (groupOf a b) (groupOf c d)
  | ip => ip

def isV4 : Ip → Bool
  | .v4 .. => true
  | .v6 .. => false

def groups : Ip → List UInt16
  | .v4 .. => []
  | .v6 a b c d e f g h => [a, b, c, d, e, f, g, h]

def ofGroups? : List UInt16 → Option Ip
  | [a, b, c, d, e, f, g, h] => some (.v6 a b c d e f g h)
  | _ => none

theorem toNat_groupOf (hi lo : UInt8) : (groupOf hi lo).toNat = 256 * hi.toNat + lo.toNat := by
  have hhi : hi.toNat < 256 := hi.toNat_lt
  have hlo : lo.toNat < 2 ^ 8 := lo.toNat_lt
  have hwide : hi.toNat * 256 % 65536 = hi.toNat * 256 := Nat.mod_eq_of_lt (by omega)
  simp only [groupOf, UInt16.toNat_or, UInt16.toNat_shiftLeft, UInt8.toNat_toUInt16]
  rw [show (8 : UInt16).toNat % 16 = 8 from rfl, Nat.shiftLeft_eq, hwide, Nat.mul_comm]
  exact (Nat.two_pow_add_eq_or_of_lt hlo hi.toNat).symm

theorem toNat_octets (g : UInt16) :
    (octets g).1.toNat = g.toNat / 256 ∧ (octets g).2.toNat = g.toNat % 256 := by
  have hlt : g.toNat < 65536 := g.toNat_lt
  have hhigh : g.toNat / 256 % 256 = g.toNat / 256 := Nat.mod_eq_of_lt (by omega)
  simp [octets, Nat.shiftRight_eq_div_pow, hhigh]

theorem groupOf_octets (g : UInt16) : groupOf (octets g).1 (octets g).2 = g := by
  apply UInt16.toNat_inj.mp
  rw [toNat_groupOf, (toNat_octets g).1, (toNat_octets g).2, Nat.div_add_mod]

theorem octets_groupOf (hi lo : UInt8) : octets (groupOf hi lo) = (hi, lo) := by
  have hhi : hi.toNat < 256 := hi.toNat_lt
  have hlo : lo.toNat < 256 := lo.toNat_lt
  obtain ⟨hfirst, hsecond⟩ := toNat_octets (groupOf hi lo)
  rw [toNat_groupOf] at hfirst hsecond
  have hdiv : (256 * hi.toNat + lo.toNat) / 256 = hi.toNat := by omega
  have hmod : (256 * hi.toNat + lo.toNat) % 256 = lo.toNat := by omega
  exact Prod.ext (UInt8.toNat_inj.mp (hfirst.trans hdiv)) (UInt8.toNat_inj.mp (hsecond.trans hmod))

theorem canonical_mapped (a b c d : UInt8) : (v4 a b c d).mapped.canonical = v4 a b c d := by
  simp [mapped, canonical, mapped?, octets_groupOf]

theorem canonical_eq_self {ip : Ip} (h : ∀ a b c d, ip ≠ (v4 a b c d).mapped) :
    ip.canonical = ip := by
  cases ip with
  | v4 => rfl
  | v6 a b c d e f g i =>
    have hnot : ¬ (a = 0 ∧ b = 0 ∧ c = 0 ∧ d = 0 ∧ e = 0 ∧ f = 0xffff) := by
      rintro ⟨rfl, rfl, rfl, rfl, rfl, rfl⟩
      refine h (octets g).1 (octets g).2 (octets i).1 (octets i).2 ?_
      simp only [mapped, groupOf_octets]
    simp only [canonical, mapped?, if_neg hnot, Option.getD_none]

end Ip

end Fanout
