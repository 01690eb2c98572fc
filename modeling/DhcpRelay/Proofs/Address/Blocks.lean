import DhcpRelay.Address.V6
import DhcpRelay.Proofs.Octets

/-!
# Blocks of IPv6 addresses

A block is written as an address and a number of bits: all addresses whose first bits are those of
that address. Seen as numbers of 128 bits they are the addresses that fall together when the other
bits are cut off (`V6Address.InBlock`).

Two blocks are told apart by looking at octets: fe80::/10 (`V6Address.isLinkLocal_iff`) and
::ffff:0:0/96 (`V6Address.isSome_mappedV4?_iff`). What is looked at are the first octets, and the
number that they spell is what is left of the address when the octets behind them are cut off
(`Octets.valueOf_append_div`).
-/

namespace DhcpRelay

namespace V6Address

/-- The first `n` bits of the address are those of the number `base`. -/
def InBlock (a : V6Address) (base n : Nat) : Prop :=
  a.octets.toNat / 2 ^ (128 - n) = base / 2 ^ (128 - n)

/-- The number of fe80::. -/
def linkLocalBase : Nat := 0xFE80 * 2 ^ 112

/-- The number of ::ffff:0:0. -/
def mappedBase : Nat := 0xFFFF * 2 ^ 32

variable {a : V6Address}

/-- The check for a link-local address is that for the block fe80::/10. -/
theorem isLinkLocal_iff : a.isLinkLocal = true ↔ a.InBlock linkLocalBase 10 := by
  obtain ⟨⟨bs, hlength⟩⟩ := a
  match bs, hlength with
  | x :: y :: rest, hlength =>
    have hrest : rest.length = 14 := by simpa using hlength
    have htop : Octets.valueOf (x :: y :: rest) / 2 ^ 112 = x.toNat * 256 + y.toNat := by
      have hdiv := Octets.valueOf_append_div [x, y] rest
      rw [hrest] at hdiv
      simpa [Octets.valueOf] using hdiv
    have hbits : ∀ n < 256, n &&& 0xC0 = 0x80 ↔ n / 64 = 2 := by decide +kernel
    have hsecond : y &&& 0xC0 = 0x80 ↔ y.toNat / 64 = 2 := by
      rw [← hbits _ y.toNat_lt, ← UInt8.toNat_inj, UInt8.toNat_and]
      rfl
    have hx := x.toNat_lt
    have hy := y.toNat_lt
    have hfirst : x = 0xFE ↔ x.toNat = 254 := by
      rw [← UInt8.toNat_inj]
      rfl
    simp only [isLinkLocal, Bool.and_eq_true, beq_iff_eq, hfirst, hsecond, InBlock, Octets.toNat,
      linkLocalBase]
    omega

/-- The check for an IPv4-mapped address is that for the block ::ffff:0:0/96. -/
theorem isSome_mappedV4?_iff : a.mappedV4?.isSome = true ↔ a.InBlock mappedBase 96 := by
  obtain ⟨⟨bs, hlength⟩⟩ := a
  have hback : (bs.drop 12).length = 4 := by simp [hlength]
  have htop : Octets.valueOf bs / 2 ^ 32 = Octets.valueOf (bs.take 12) := by
    have hdiv := Octets.valueOf_append_div (bs.take 12) (bs.drop 12)
    rwa [List.take_append_drop, hback] at hdiv
  have hfront : bs.take 12 = [0, 0, 0, 0, 0, 0, 0, 0, 0, 0, 0xFF, 0xFF] ↔
      Octets.valueOf (bs.take 12) = 0xFFFF := by
    constructor
    · intro h
      rw [h]
      rfl
    · intro h
      exact Octets.eq_of_valueOf_eq (by simp [hlength]) h
  simp only [mappedV4?, InBlock, Octets.toNat, mappedBase, htop, hfront]
  split <;> simp_all [Octets.ofList?]

end V6Address

end DhcpRelay
