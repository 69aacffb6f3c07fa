import Mathlib.Data.List.Nodup

/-!
# Packet filter tables

A table in the style of `nftables`: named sets of address blocks, chains of rules, and a base chain
that mixes rules with jumps into the chains.  A packet walks the base chain in order; a jump walks
the chain and comes back when the chain ends; the first rule that applies gives the verdict, and a
packet that meets none gets the policy.  A name that is declared twice stands for both declarations.

The names of sets (`S`) and chains (`C`), the address blocks (`B`) and the addresses (`A`) are
arbitrary; `mem` says which addresses a block holds.
-/

namespace Nft

variable {S C B A : Type}

/-- What becomes of a packet. -/
inductive Verdict where
  | accept | drop
  deriving DecidableEq, Repr

/-- A packet as the rules see it. -/
structure Packet (A : Type) where
  src : A
  dst : A
  established : Bool
  deriving DecidableEq

/-- An address match: none, a block written in the rule, or a named set. -/
inductive Match (S B : Type) where
  | any
  | block (b : B)
  | set (name : S)

/-- A rule; `established` asks for a packet of a known connection. -/
structure Rule (S B : Type) where
  saddr : Match S B := .any
  daddr : Match S B := .any
  established : Bool := false
  verdict : Verdict

/-- A rule of the base chain: one of its own, or a jump to a chain. -/
inductive BaseRule (S C B : Type) where
  | rule (r : Rule S B)
  | jump (chain : C)

/-- A table with named sets, chains, the rules of its base chain and its policy. -/
structure Table (S C B : Type) where
  sets : List (S × List B)
  chains : List (C × List (Rule S B))
  base : List (BaseRule S C B)
  policy : Verdict

namespace Table

variable [DecidableEq S] (mem : B → A → Bool) (t : Table S C B)

/-- The blocks of all sets of this name. -/
def setBlocks (name : S) : List B := (t.sets.filter (·.1 = name)).flatMap (·.2)

/-- The rules of all chains of this name. -/
def chainRules [DecidableEq C] (name : C) : List (Rule S B) := (t.chains.filter (·.1 = name)).flatMap (·.2)

/-- An address is within what a rule asks for. -/
def matchesAddr (a : A) : Match S B → Bool
  | .any => true
  | .block b => mem b a
  | .set name => (t.setBlocks name).any fun b => mem b a

/-- A rule applies to the packet. -/
def applies (p : Packet A) (r : Rule S B) : Bool :=
  t.matchesAddr mem p.src r.saddr && t.matchesAddr mem p.dst r.daddr &&
    (!r.established || p.established)

/-- The verdict of the first rule that applies. -/
def firstVerdict (p : Packet A) (rules : List (Rule S B)) : Option Verdict :=
  rules.findSome? fun r => if t.applies mem p r then some r.verdict else none

/-- What a rule of the base chain decides; a chain that decides nothing returns. -/
def baseVerdict [DecidableEq C] (p : Packet A) : BaseRule S C B → Option Verdict
  | .rule r => t.firstVerdict mem p [r]
  | .jump chain => t.firstVerdict mem p (t.chainRules chain)

/-- The first decision of the base chain, or else its policy. -/
def verdict [DecidableEq C] (p : Packet A) : Verdict :=
  (t.base.findSome? (t.baseVerdict mem p)).getD t.policy

variable {mem} {t} {p : Packet A} {r : Rule S B} {rs rs' : List (Rule S B)}

@[simp] theorem matchesAddr_any (a : A) : t.matchesAddr mem a .any = true := rfl

@[simp] theorem matchesAddr_block (a : A) (b : B) : t.matchesAddr mem a (.block b) = mem b a := rfl

@[simp] theorem firstVerdict_nil : t.firstVerdict mem p [] = none := rfl

theorem firstVerdict_cons : t.firstVerdict mem p (r :: rs) =
    if t.applies mem p r then some r.verdict else t.firstVerdict mem p rs := by
  simp only [firstVerdict, List.findSome?_cons]
  split_ifs with h <;> rfl

theorem firstVerdict_append : t.firstVerdict mem p (rs ++ rs') =
    (t.firstVerdict mem p rs).or (t.firstVerdict mem p rs') := List.findSome?_append

/-- Rules that all give one verdict give it when one of them applies. -/
theorem firstVerdict_uniform {v : Verdict} (h : ∀ r ∈ rs, r.verdict = v) :
    t.firstVerdict mem p rs = if rs.any (t.applies mem p) then some v else none := by
  induction rs with
  | nil => rfl
  | cons r rs ih =>
    rw [firstVerdict_cons, ih fun r' hr' => h r' (List.mem_cons_of_mem r hr'),
      h r List.mem_cons_self, List.any_cons]
    cases t.applies mem p r <;> simp

end Table

theorem findSome?_congr {α β : Type} {f g : α → Option β} {l : List α}
    (h : ∀ a ∈ l, f a = g a) : l.findSome? f = l.findSome? g := by
  induction l with
  | nil => rfl
  | cons a l ih =>
    rw [List.findSome?_cons, List.findSome?_cons, h a List.mem_cons_self,
      ih fun b hb => h b (List.mem_cons_of_mem a hb)]

/-- Among members with distinct keys, a key selects one. -/
theorem flatMap_ite_of_nodup {α β κ : Type} [DecidableEq κ] {f : α → κ} {l : List α}
    (hl : (l.map f).Nodup) {a : α} (ha : a ∈ l) (g : α → List β) :
    (l.flatMap fun x => if f x = f a then g x else []) = g a := by
  induction l with
  | nil => exact absurd ha List.not_mem_nil
  | cons x l ih =>
    obtain ⟨hx, hl⟩ := List.nodup_cons.1 hl
    rw [List.flatMap_cons]
    rcases List.mem_cons.1 ha with rfl | ha
    · have hnone : (l.flatMap fun x => if f x = f a then g x else []) = [] := by
        refine List.flatMap_eq_nil_iff.2 fun y hy => if_neg fun he => hx ?_
        exact he ▸ List.mem_map_of_mem hy
      rw [if_pos rfl, hnone, List.append_nil]
    · have hne : f x ≠ f a := fun he => hx (he ▸ List.mem_map_of_mem ha)
      rw [if_neg hne, List.nil_append, ih hl ha]

end Nft
