import CommitScript.Group.Residue
import CommitScript.Proofs.GroupLaws
import CommitScript.Proofs.ModularPower

/-! # The laws of residues

The genuine elements are the residues whose power to the order is one. For a prime modulus
they keep the laws of a group, and there are as many as the order says.
-/

namespace CommitScript.ResidueGroup

variable (group : ResidueGroup)

/-- A residue as a class modulo the modulus. -/
def cls (a : Residue) : ZMod group.modulus :=
  a.value

variable {group}

theorem two_mul_order : 2 * group.order + 1 = group.modulus := by
  have := group.modulus_odd
  have := group.modulus_large
  unfold order
  omega

theorem order_pos : 0 < group.order := by
  have := group.two_mul_order
  have := group.modulus_large
  omega

theorem modulus_pos : 0 < group.modulus :=
  Nat.lt_trans (by decide) group.modulus_large

theorem width_pos : 0 < group.width :=
  Bytes.widthOf_pos group.modulus_pos

theorem one_lt_modulus : Fact (1 < group.modulus) :=
  ⟨Nat.lt_trans (by decide) group.modulus_large⟩

theorem cls_power (a : Residue) (exponent : Nat) :
    group.cls (group.power a exponent) = group.cls a ^ exponent := by
  simp [cls, power, Modular.power_eq _ _ group.modulus_pos]

theorem cls_add (a b : Residue) : group.cls (group.ops.add a b) = group.cls a * group.cls b := by
  simp [cls, ops]

theorem power_eq_one_iff (a : Residue) :
    Modular.power group.modulus a.value group.order = 1 ↔ group.cls a ^ group.order = 1 := by
  have := group.one_lt_modulus
  have one : 1 % group.modulus = 1 := Nat.mod_eq_of_lt this.out
  rw [Modular.power_eq _ _ group.modulus_pos, cls, ← Nat.cast_pow, ← Nat.cast_one (R := ZMod _),
    ZMod.natCast_eq_natCast_iff', one]

/-- A residue is genuine when it lies below the modulus and its power to the order is one. -/
theorem member_iff (a : Residue) :
    group.ops.Member a ↔ a.value < group.modulus ∧ group.cls a ^ group.order = 1 := by
  have read : Bytes.toNatBig (Bytes.ofNatBig group.width a.value) = a.value :=
    Bytes.toNatBig_ofNatBig _ _
  rw [← power_eq_one_iff]
  constructor
  · intro h
    simp only [GroupOps.Member, ops, decode, read] at h
    split at h
    · cases h
    · split at h
      · cases h
      · split at h
        · next range inside => exact ⟨by omega, beq_iff_eq.mp inside⟩
        · cases h
  · rintro ⟨small, inside⟩
    have length : (Bytes.ofNatBig group.width a.value).length = group.width :=
      Bytes.length_ofNatBig_of_lt small
    have nonzero : a.value ≠ 0 := by
      intro zero
      have := group.one_lt_modulus
      rw [power_eq_one_iff, cls, zero, Nat.cast_zero, zero_pow (Nat.ne_of_gt group.order_pos)]
        at inside
      exact zero_ne_one inside
    have range : ¬(a.value = 0 ∨ group.modulus ≤ a.value) := by omega
    simp [GroupOps.Member, ops, decode, length, read, range, contains, inside]

theorem cls_inj {a b : Residue} (ha : group.ops.Member a) (hb : group.ops.Member b) :
    group.cls a = group.cls b ↔ a = b := by
  constructor
  · intro h
    have classes := (ZMod.natCast_eq_natCast_iff' _ _ _).mp h
    rw [Nat.mod_eq_of_lt ((member_iff a).mp ha).1, Nat.mod_eq_of_lt ((member_iff b).mp hb).1]
      at classes
    cases a
    cases b
    exact congrArg Residue.mk classes
  · rintro rfl
    rfl

theorem member_one : group.ops.Member ⟨1⟩ := by
  refine (member_iff _).mpr ⟨group.one_lt_modulus.out, ?_⟩
  simp [cls]

theorem member_add {a b : Residue} (ha : group.ops.Member a) (hb : group.ops.Member b) :
    group.ops.Member (group.ops.add a b) := by
  rw [member_iff] at ha hb ⊢
  refine ⟨Nat.mod_lt _ group.modulus_pos, ?_⟩
  rw [cls_add, mul_pow, ha.2, hb.2, one_mul]

theorem member_power {a : Residue} (ha : group.ops.Member a) (exponent : Nat) :
    group.ops.Member (group.power a exponent) := by
  rw [member_iff] at ha ⊢
  refine ⟨Modular.power_lt _ _ group.modulus_pos, ?_⟩
  rw [cls_power, ← pow_mul, mul_comm, pow_mul, ha.2, one_pow]

/-- Exponents count modulo the order. -/
theorem cls_pow_mod {a : Residue} (ha : group.ops.Member a) (exponent : Nat) :
    group.cls a ^ (exponent % group.order) = group.cls a ^ exponent := by
  conv => rhs; rw [← Nat.div_add_mod exponent group.order]
  rw [pow_add, pow_mul, ((member_iff a).mp ha).2, one_pow, one_mul]

/-- There are as many genuine residues as the order says: the solutions of one equation in
    the cyclic group of all residues. -/
theorem card_members (prime : group.modulus.Prime) :
    Nat.card group.ops.Members = group.order := by
  have : Fact group.modulus.Prime := ⟨prime⟩
  have units : Nat.card (ZMod group.modulus)ˣ = 2 * group.order := by
    rw [Nat.card_eq_fintype_card, ZMod.card_units, ← group.two_mul_order, Nat.add_sub_cancel]
  have kernel := IsCyclic.card_powMonoidHom_ker (G := (ZMod group.modulus)ˣ) group.order
  rw [units, Nat.gcd_mul_left_left] at kernel
  rw [← kernel]
  have root (a : group.ops.Members) : group.cls a ^ group.order = 1 := ((member_iff _).mp a.2).2
  let unit (a : group.ops.Members) : (ZMod group.modulus)ˣ :=
    Units.ofPowEqOne _ _ (root a) (Nat.ne_of_gt group.order_pos)
  have inside (a : group.ops.Members) : unit a ∈ (powMonoidHom group.order).ker :=
    Units.ext (root a)
  refine Nat.card_congr (Equiv.ofBijective (fun a => ⟨unit a, inside a⟩) ⟨?_, ?_⟩)
  · intro a b h
    have classes : group.cls a = group.cls b := congrArg Units.val (congrArg Subtype.val h)
    exact Subtype.ext ((cls_inj a.2 b.2).mp classes)
  · rintro ⟨u, hu⟩
    have value : ((u : ZMod group.modulus).val : ZMod group.modulus) = u := ZMod.natCast_zmod_val _
    have member : group.ops.Member ⟨(u : ZMod group.modulus).val⟩ := by
      refine (member_iff _).mpr ⟨ZMod.val_lt _, ?_⟩
      rw [cls, value]
      exact congrArg Units.val hu
    exact ⟨⟨_, member⟩, Subtype.ext (Units.ext value)⟩

/-- The square of a class other than zero is genuine. -/
theorem member_square (prime : group.modulus.Prime) {value : Nat} (pos : 0 < value)
    (small : value < group.modulus) :
    group.ops.Member ⟨value * value % group.modulus⟩ := by
  have : Fact group.modulus.Prime := ⟨prime⟩
  have nonzero : (value : ZMod group.modulus) ≠ 0 := by
    rw [ne_eq, ZMod.natCast_eq_zero_iff]
    exact Nat.not_dvd_of_pos_of_lt pos small
  refine (member_iff _).mpr ⟨Nat.mod_lt _ group.modulus_pos, ?_⟩
  have square : group.cls ⟨value * value % group.modulus⟩ = value * value := cls_add ⟨value⟩ ⟨value⟩
  rw [square, ← pow_two, ← pow_mul]
  have exponent : 2 * group.order = group.modulus - 1 := by
    have := group.two_mul_order
    omega
  rw [exponent]
  exact ZMod.pow_card_sub_one_eq_one nonzero

variable (group)

/-- Every residue has one encoding, for any modulus. -/
theorem ops_canonical : group.ops.Canonical := by
  intro bytes a h
  simp only [ops, decode] at h
  split at h
  · cases h
  · next length =>
    split at h
    · cases h
    · split at h
      · cases h
        rw [ne_eq, Decidable.not_not] at length
        have some : 0 < bytes.length := length ▸ group.width_pos
        simp only [ops, ← length, Bytes.ofNatBig_toNatBig some]
      · cases h

/-- The residues keep the laws of a group, for a prime modulus. -/
theorem laws (prime : group.modulus.Prime) : group.ops.Laws where
  generator_member := by
    refine (member_iff _).mpr ⟨group.generator_small, ?_⟩
    exact (power_eq_one_iff ⟨group.generator⟩).mp group.generator_inside
  identity_member := member_one
  add_member := member_add
  negate_member ha := member_power ha _
  sample_member := by
    intro bytes a h
    simp only [ops, ofSample?] at h
    split at h
    · cases h
    · split at h
      · cases h
      · cases h
        exact member_square prime (by omega) (by omega)
  add_assoc := by
    intro a b c ha hb hc
    rw [← cls_inj (member_add (member_add ha hb) hc) (member_add ha (member_add hb hc))]
    simp only [cls_add, mul_assoc]
  add_comm := by
    intro a b ha hb
    rw [← cls_inj (member_add ha hb) (member_add hb ha), cls_add, cls_add, mul_comm]
  identity_add := by
    intro a ha
    simp only [ops, Nat.one_mul, Nat.mod_eq_of_lt ((member_iff a).mp ha).1]
  negate_add := by
    intro a ha
    have inverse : group.ops.Member (group.ops.negate a) := member_power ha _
    have exponent : group.modulus - 2 + 1 = group.order * 2 := by
      have := group.two_mul_order
      have := group.order_pos
      omega
    refine (cls_inj (member_add inverse ha) member_one).mp ?_
    have power : group.cls (group.ops.negate a) = group.cls a ^ (group.modulus - 2) := cls_power a _
    rw [cls_add, power, ← pow_succ, exponent, pow_mul, ((member_iff a).mp ha).2]
    simp [cls]
  multiple_zero := by
    intro a ha
    have := group.one_lt_modulus.out
    simp [ops, power, Modular.power, Nat.mod_eq_of_lt this]
  multiple_succ := by
    intro a k ha
    have power (k : Nat) : group.cls (group.ops.multiple k a) = group.cls a ^ k :=
      (cls_power a _).trans (cls_pow_mod ha k)
    have inside (k : Nat) : group.ops.Member (group.ops.multiple k a) := member_power ha _
    rw [← cls_inj (inside _) (member_add (inside k) ha), cls_add, power, power, pow_succ]
  card_members := card_members prime
  decode_canonical := group.ops_canonical _ _
  encode_ne_nil _ := Bytes.ofNatBig_ne_nil _ _

/-- The residues of a safe prime are a group of prime order. -/
theorem primeOrder (prime : group.modulus.Prime) (orderPrime : group.order.Prime) :
    group.ops.PrimeOrder where
  toLaws := group.laws prime
  prime := orderPrime
  generator_ne := by
    intro h
    have large := group.generator_large
    have value := congrArg Residue.value h
    simp only [ops] at value
    omega

end CommitScript.ResidueGroup
