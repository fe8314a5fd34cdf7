import Mathlib
import CommitScript.Group.Basic

/-! # The laws of a group

What a group promises: its genuine elements are a commutative group with as many elements as
the order says, and each of them has one encoding. When the order is prime the generator gives
every element a logarithm, so an equation between elements is an equation between residues.
-/

namespace CommitScript.GroupOps

variable {Element : Type}

/-- A genuine element is one whose encoding reads back as that element. -/
def Member (group : GroupOps Element) (a : Element) : Prop :=
  group.decode (group.encode a) = .ok a

/-- The genuine elements. -/
abbrev Members (group : GroupOps Element) : Type :=
  { a : Element // group.Member a }

/-- Whether every byte string that is read as an element is the encoding of that element. -/
def Canonical (group : GroupOps Element) : Prop :=
  ∀ bytes a, group.decode bytes = .ok a → group.encode a = bytes

/-- What a group promises of its operations. -/
structure Laws (group : GroupOps Element) : Prop where
  generator_member : group.Member group.generator
  identity_member : group.Member group.identity
  add_member : ∀ {a b}, group.Member a → group.Member b → group.Member (group.add a b)
  negate_member : ∀ {a}, group.Member a → group.Member (group.negate a)
  sample_member : ∀ {bytes a}, group.ofSample? bytes = some a → group.Member a
  add_assoc : ∀ {a b c}, group.Member a → group.Member b → group.Member c →
    group.add (group.add a b) c = group.add a (group.add b c)
  add_comm : ∀ {a b}, group.Member a → group.Member b → group.add a b = group.add b a
  identity_add : ∀ {a}, group.Member a → group.add group.identity a = a
  negate_add : ∀ {a}, group.Member a → group.add (group.negate a) a = group.identity
  multiple_zero : ∀ {a}, group.Member a → group.multiple 0 a = group.identity
  multiple_succ : ∀ {a} (k : Nat), group.Member a →
    group.multiple (k + 1) a = group.add (group.multiple k a) a
  card_members : Nat.card group.Members = group.order
  /-- No other bytes encode an element. -/
  decode_canonical : ∀ {bytes a}, group.decode bytes = .ok a → group.encode a = bytes
  /-- An empty encoding would be lost among the blank fields of a text. -/
  encode_ne_nil : ∀ {a}, group.Member a → group.encode a ≠ []

/-- The laws of a group of prime order, which its generator generates. -/
structure PrimeOrder (group : GroupOps Element) : Prop extends group.Laws where
  prime : group.order.Prime
  generator_ne : group.generator ≠ group.identity

variable {group : GroupOps Element}

namespace Laws

theorem sub_member (laws : group.Laws) {a b : Element} (ha : group.Member a)
    (hb : group.Member b) : group.Member (group.sub a b) :=
  laws.add_member ha (laws.negate_member hb)

theorem multiple_member (laws : group.Laws) (k : Nat) {a : Element} (h : group.Member a) :
    group.Member (group.multiple k a) := by
  induction k with
  | zero =>
      rw [laws.multiple_zero h]
      exact laws.identity_member
  | succ k ih =>
      rw [laws.multiple_succ k h]
      exact laws.add_member ih h

/-- The genuine elements as a commutative group. -/
@[reducible]
def addCommGroup (laws : group.Laws) : AddCommGroup group.Members :=
  letI : Add group.Members := ⟨fun a b => ⟨group.add a b, laws.add_member a.2 b.2⟩⟩
  letI : Zero group.Members := ⟨⟨group.identity, laws.identity_member⟩⟩
  letI : Neg group.Members := ⟨fun a => ⟨group.negate a, laws.negate_member a.2⟩⟩
  { nsmul := nsmulRec
    zsmul := zsmulRec
    add_assoc a b c := Subtype.ext (laws.add_assoc a.2 b.2 c.2)
    add_comm a b := Subtype.ext (laws.add_comm a.2 b.2)
    zero_add a := Subtype.ext (laws.identity_add a.2)
    add_zero a := Subtype.ext ((laws.add_comm a.2 laws.identity_member).trans
      (laws.identity_add a.2))
    neg_add_cancel a := Subtype.ext (laws.negate_add a.2) }

end Laws

namespace PrimeOrder

/-- Every genuine element is a multiple of the generator. -/
theorem mem_zmultiples (laws : group.PrimeOrder) (a : group.Members) :
    letI := laws.addCommGroup
    a ∈ AddSubgroup.zmultiples (⟨group.generator, laws.generator_member⟩ : group.Members) := by
  let := laws.addCommGroup
  have : Fact group.order.Prime := ⟨laws.prime⟩
  refine mem_zmultiples_of_prime_card laws.card_members ?_
  intro h
  exact laws.generator_ne (congrArg Subtype.val h)

/-- Residues and genuine elements correspond; one stands for the generator. -/
noncomputable def residues (laws : group.PrimeOrder) {q : Nat} (h : group.order = q) :
    letI := laws.addCommGroup
    ZMod q ≃+ group.Members :=
  letI := laws.addCommGroup
  zmodAddEquivOfGenerator laws.mem_zmultiples (laws.card_members.trans h)

open Classical in
/-- How often the generator is taken to make an element, modulo the order. -/
noncomputable def log (laws : group.PrimeOrder) {q : Nat} (h : group.order = q) (a : Element) :
    ZMod q :=
  letI := laws.addCommGroup
  if member : group.Member a then (laws.residues h).symm ⟨a, member⟩ else 0

variable (laws : group.PrimeOrder) {q : Nat} (h : group.order = q)

theorem log_of_member {a : Element} (ha : group.Member a) :
    letI := laws.addCommGroup
    laws.log h a = (laws.residues h).symm ⟨a, ha⟩ := by
  rw [log, dif_pos ha]

theorem log_inj {a b : Element} (ha : group.Member a) (hb : group.Member b) :
    laws.log h a = laws.log h b ↔ a = b := by
  let := laws.addCommGroup
  rw [log_of_member laws h ha, log_of_member laws h hb, EquivLike.apply_eq_iff_eq, Subtype.mk.injEq]

@[simp]
theorem log_generator : laws.log h group.generator = 1 := by
  let := laws.addCommGroup
  rw [log_of_member laws h laws.generator_member]
  exact zmodAddEquivOfGenerator_symm_apply_generator _ _

@[simp]
theorem log_identity : laws.log h group.identity = 0 := by
  let := laws.addCommGroup
  rw [log_of_member laws h laws.identity_member]
  exact map_zero (laws.residues h).symm

theorem log_add {a b : Element} (ha : group.Member a) (hb : group.Member b) :
    laws.log h (group.add a b) = laws.log h a + laws.log h b := by
  let := laws.addCommGroup
  rw [log_of_member laws h ha, log_of_member laws h hb,
    log_of_member laws h (laws.add_member ha hb)]
  exact map_add (laws.residues h).symm ⟨a, ha⟩ ⟨b, hb⟩

theorem log_negate {a : Element} (ha : group.Member a) :
    laws.log h (group.negate a) = -laws.log h a := by
  let := laws.addCommGroup
  rw [log_of_member laws h ha, log_of_member laws h (laws.negate_member ha)]
  exact map_neg (laws.residues h).symm ⟨a, ha⟩

theorem log_sub {a b : Element} (ha : group.Member a) (hb : group.Member b) :
    laws.log h (group.sub a b) = laws.log h a - laws.log h b := by
  rw [GroupOps.sub, laws.log_add h ha (laws.negate_member hb), laws.log_negate h hb, sub_eq_add_neg]

theorem log_multiple (k : Nat) {a : Element} (ha : group.Member a) :
    laws.log h (group.multiple k a) = k * laws.log h a := by
  induction k with
  | zero => rw [laws.multiple_zero ha, log_identity, Nat.cast_zero, zero_mul]
  | succ k ih =>
      rw [laws.multiple_succ k ha, laws.log_add h (laws.multiple_member k ha) ha, ih,
        Nat.cast_succ, add_mul, one_mul]

end PrimeOrder

end CommitScript.GroupOps
