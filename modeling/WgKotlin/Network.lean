import WgKotlin.Proto
import WgKotlin.Library.Bits

/-!
# What an address prefix means

A prefix fixes the leading bits of an address of its own family.  These notions
belong to no program: the client and the daemon are both measured against them.
-/

namespace WgKotlin
namespace Proto

open Library

inductive Family
  | v4
  | v6
  deriving DecidableEq, Repr

/-- The number of bytes of an address. -/
def Family.size : Family → Nat
  | .v4 => 4
  | .v6 => 16

namespace IpValue

def family : IpValue → Family
  | .v4 _ => .v4
  | .v6 _ => .v6

def bytes : IpValue → Bytes
  | .v4 bytes => bytes
  | .v6 bytes => bytes

end IpValue

/-- The message field `ip`, which reads as an empty message when it is unset. -/
def Cidr.getIp (cidr : Cidr) : Ip := cidr.ip.getD { value := none }

/-- An address with as many bytes as its family has. -/
def Ip.WellFormed (ip : Ip) : Prop :=
  match ip.value with
  | some a => a.bytes.length = a.family.size
  | none => False

/-- A 4-byte or 16-byte address with a prefix that is not longer than the
address. -/
def Cidr.WellFormed (cidr : Cidr) : Prop :=
  cidr.getIp.WellFormed ∧
    match cidr.getIp.value with
    | some a => cidr.prefixLen.toNat ≤ 8 * a.family.size
    | none => False

/-- The prefix contains the address: one family, and the same leading bits. -/
def Cidr.Contains (cidr : Cidr) (ip : Ip) : Prop :=
  match cidr.getIp.value, ip.value with
  | some a, some b =>
    a.family = b.family ∧
      (bits a.bytes).take cidr.prefixLen.toNat = (bits b.bytes).take cidr.prefixLen.toNat
  | _, _ => False

/-- Two prefixes of one family and one length with the same leading bits. -/
def Cidr.SameNetwork (c d : Cidr) : Prop :=
  c.prefixLen = d.prefixLen ∧ c.Contains d.getIp

instance (ip : Ip) : Decidable ip.WellFormed :=
  match h : ip.value with
  | some a => decidable_of_iff (a.bytes.length = a.family.size) (by simp [Ip.WellFormed, h])
  | none => isFalse (by simp [Ip.WellFormed, h])

instance (cidr : Cidr) : Decidable cidr.WellFormed :=
  match h : cidr.getIp.value with
  | some a =>
    decidable_of_iff (cidr.getIp.WellFormed ∧ cidr.prefixLen.toNat ≤ 8 * a.family.size)
      (by simp [Cidr.WellFormed, h])
  | none => isFalse (by simp [Cidr.WellFormed, h])

instance (cidr : Cidr) (ip : Ip) : Decidable (cidr.Contains ip) :=
  match h₁ : cidr.getIp.value, h₂ : ip.value with
  | some a, some b =>
    decidable_of_iff
      (a.family = b.family ∧
        (bits a.bytes).take cidr.prefixLen.toNat = (bits b.bytes).take cidr.prefixLen.toNat)
      (by simp [Cidr.Contains, h₁, h₂])
  | none, _ => isFalse (by simp [Cidr.Contains, h₁])
  | some _, none => isFalse (by simp [Cidr.Contains, h₂])

theorem Ip.WellFormed.exists_value {ip : Ip} (h : ip.WellFormed) :
    ∃ a, ip.value = some a ∧ a.bytes.length = a.family.size := by
  unfold Ip.WellFormed at h
  cases hv : ip.value with
  | none => simp [hv] at h
  | some a => exact ⟨a, rfl, by simpa [hv] using h⟩

theorem Ip.WellFormed.cidr {ip : Ip} (h : ip.WellFormed) {a : IpValue} (ha : ip.value = some a)
    {p : UInt32} (hp : p.toNat ≤ 8 * a.family.size) :
    Cidr.WellFormed { ip := some ip, prefixLen := p } :=
  ⟨h, by simpa [Cidr.getIp, ha] using hp⟩

/-- The value behind a well-formed prefix. -/
theorem Cidr.WellFormed.exists_value {cidr : Cidr} (h : cidr.WellFormed) :
    ∃ a, cidr.getIp.value = some a ∧ a.bytes.length = a.family.size ∧
      cidr.prefixLen.toNat ≤ 8 * a.family.size := by
  obtain ⟨a, ha, hlen⟩ := h.1.exists_value
  have hp := h.2
  rw [ha] at hp
  exact ⟨a, ha, hlen, hp⟩

theorem Cidr.WellFormed.ip_eq {cidr : Cidr} (h : cidr.WellFormed) : cidr.ip = some cidr.getIp := by
  obtain ⟨a, ha, _⟩ := h.exists_value
  unfold Cidr.getIp at ha ⊢
  cases hip : cidr.ip with
  | none =>
      rw [hip] at ha
      cases ha
  | some ip => rfl

/-- Well-formed prefixes are compared by address and length. -/
theorem Cidr.WellFormed.ext {c d : Cidr} (hc : c.WellFormed) (hd : d.WellFormed)
    (hip : c.getIp = d.getIp) (hlen : c.prefixLen = d.prefixLen) : c = d := by
  have hips : c.ip = d.ip := by rw [hc.ip_eq, hd.ip_eq, hip]
  cases c
  cases d
  cases hips
  cases hlen
  rfl

theorem Cidr.WellFormed.prefixLen_le {cidr : Cidr} (h : cidr.WellFormed) :
    cidr.prefixLen.toNat ≤ 128 := by
  obtain ⟨a, _, _, hp⟩ := h.exists_value
  cases hf : a.family <;> rw [hf] at hp <;> simp only [Family.size] at hp <;> omega

theorem Cidr.contains_iff {cidr : Cidr} {ip : Ip} {a b : IpValue}
    (ha : cidr.getIp.value = some a) (hb : ip.value = some b) :
    cidr.Contains ip ↔ a.family = b.family ∧
      (bits a.bytes).take cidr.prefixLen.toNat = (bits b.bytes).take cidr.prefixLen.toNat := by
  unfold Cidr.Contains
  rw [ha, hb]

theorem Cidr.Contains.exists_value {cidr : Cidr} {ip : Ip} (h : cidr.Contains ip) :
    ∃ a b, cidr.getIp.value = some a ∧ ip.value = some b := by
  unfold Cidr.Contains at h
  cases ha : cidr.getIp.value with
  | none => simp [ha] at h
  | some a =>
      cases hb : ip.value with
      | none => simp [ha, hb] at h
      | some b => exact ⟨a, b, rfl, rfl⟩

/-- Prefixes of one length that contain one address are one network. -/
theorem Cidr.SameNetwork.of_contains {c d : Cidr} {ip : Ip} (hlen : c.prefixLen = d.prefixLen)
    (hc : c.Contains ip) (hd : d.Contains ip) : c.SameNetwork d := by
  obtain ⟨a, i, ha, hi⟩ := hc.exists_value
  obtain ⟨b, _, hb, _⟩ := hd.exists_value
  rw [Cidr.contains_iff ha hi] at hc
  rw [Cidr.contains_iff hb hi] at hd
  refine ⟨hlen, (Cidr.contains_iff ha hb).mpr ⟨hc.1.trans hd.1.symm, ?_⟩⟩
  rw [hc.2, hlen, hd.2]

end Proto
end WgKotlin
