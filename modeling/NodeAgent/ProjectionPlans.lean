import NodeAgent.ProjectionBudget
import Mathlib.Data.List.Perm.Subperm
import Mathlib.Algebra.Order.BigOperators.Group.List
import Mathlib.Algebra.Order.Group.Nat

/-!
Plans of projections. What an operation on the budget gives, and what it is billed for, is
the same on every valid budget: the budget decides only whether all bills fit. A plan fits
after less has been billed, so that projections can be left out in front of it.
-/
namespace NodeAgent.ClientChains
open NodeAgent.Api NodeAgent.Json NodeAgent.FiniteMap NodeAgent.OutboundAdapter NodeAgent.Outbounds NodeAgent.Fallible

variable {ext : Externals} {catalog : Catalog} {o p t : ValidatedOutbound} {α β : Type}

/-! ### Settling bills -/

/-- The ledger after some bills, all of which fitted. -/
inductive Ledger.Settles : Ledger → List Bill → Ledger → Prop
  | nil {l : Ledger} : Settles l [] l
  | cons {l l' : Ledger} {bill : Bill} {rest : List Bill} (fits : l.admits bill) (others : Settles (l.settle bill) rest l') : Settles l (bill :: rest) l'

theorem Ledger.Settles.append {l l' l'' : Ledger} {first second : List Bill} (before : l.Settles first l') (after : l'.Settles second l'') :
    l.Settles (first ++ second) l'' := by
  induction before with
  | nil => exact after
  | cons fits _ ih => exact .cons fits (ih after)

theorem Ledger.Settles.split {l l'' : Ledger} {first second : List Bill} (settles : l.Settles (first ++ second) l'') :
    ∃ l', l.Settles first l' ∧ l'.Settles second l'' := by
  induction first generalizing l with
  | nil => exact ⟨l,.nil,settles⟩
  | cons bill rest ih =>
    cases settles with
    | cons fits others =>
      obtain ⟨l',before,after⟩ := ih others
      exact ⟨l',.cons fits before,after⟩

theorem Ledger.Settles.unique {l l' l'' : Ledger} {bills : List Bill} (first : l.Settles bills l') (second : l.Settles bills l'') : l' = l'' := by
  induction first with
  | nil =>
    cases second
    rfl
  | cons _ _ ih =>
    cases second with
    | cons _ others => exact ih others

/-! ### Less billed before -/

variable (ext catalog) in
/-- The action is the one of the URLTest with this identity. -/
def Genuine (id : Nat) (sample : CachedUrltestAction) : Prop := ∃ o, Known catalog o ∧ o.id = id ∧ UrltestImage ext catalog o sample

theorem Genuine.unique {id : Nat} {a a' : CachedUrltestAction} (acc : Accepted ext catalog) (first : Genuine ext catalog id a)
    (second : Genuine ext catalog id a') : a = a' := by
  obtain ⟨o,known,same,image⟩ := first
  obtain ⟨o',known',same',image'⟩ := second
  cases acc.indexed.ids o.tag o'.tag o o' known known' (same.trans same'.symm)
  exact image.unique image'

variable (ext catalog) in
def Bill.genuine : Bill → Prop
  | .plain _ => True
  | .urltest id sample => Genuine ext catalog id sample

variable (ext catalog) in
/-- A ledger that a valid budget can have. -/
structure Ledger.Sound (l : Ledger) : Prop where
  groups : ∀ (id : Nat) (a : CachedUrltestAction), l.groups[id]? = some a → Genuine ext catalog id a
  candidates : l.candidates = total (fun _ a => probes a) l.groups

/-- Less has been billed. -/
structure Ledger.Below (l l' : Ledger) : Prop where
  hops : l.used.hops ≤ l'.used.hops
  bytes : l.used.bytes ≤ l'.used.bytes
  groups : ∀ (id : Nat) (a : CachedUrltestAction), l.groups[id]? = some a → l'.groups[id]? = some a

/-- The limits that every ledger keeps once it has settled something. -/
structure Ledger.Within (l : Ledger) : Prop where
  groups : l.groups.size ≤ MAX_PROJECTED_URLTEST_GROUPS
  candidates : l.candidates ≤ MAX_PROJECTED_URLTEST_CANDIDATES

theorem subperm_toList {m m' : Map Nat CachedUrltestAction} (contained : ∀ (id : Nat) (a : CachedUrltestAction), m[id]? = some a → m'[id]? = some a) :
    m.toList.Subperm m'.toList := by
  refine List.subperm_of_subset (nodup_toList m) ?_
  rintro ⟨id,a⟩ member
  rw [mem_toList] at member ⊢
  exact contained id a member

theorem total_le {m m' : Map Nat CachedUrltestAction} (contained : ∀ (id : Nat) (a : CachedUrltestAction), m[id]? = some a → m'[id]? = some a) :
    total (fun _ a => probes a) m ≤ total (fun _ a => probes a) m' := by
  obtain ⟨l,perm,sub⟩ := subperm_toList contained
  unfold total
  rw [← (perm.map _).sum_eq]
  exact (sub.map _).sum_le_sum (fun _ _ => Nat.zero_le _)

theorem size_le {m m' : Map Nat CachedUrltestAction} (contained : ∀ (id : Nat) (a : CachedUrltestAction), m[id]? = some a → m'[id]? = some a) :
    m.size ≤ m'.size := by
  rw [← Std.ExtTreeMap.length_toList,← Std.ExtTreeMap.length_toList]
  exact (subperm_toList contained).length_le

theorem Ledger.Sound.settle {l : Ledger} {bill : Bill} (sound : l.Sound ext catalog) (genuine : bill.genuine ext catalog) :
    (l.settle bill).Sound ext catalog := by
  cases bill with
  | plain cost => exact ⟨sound.groups,sound.candidates⟩
  | urltest id sample =>
    rw [Ledger.settle]
    split
    · exact ⟨sound.groups,sound.candidates⟩
    · next fresh =>
      refine ⟨?_,?_⟩
      · intro other a there
        change (l.groups.insert id sample)[other]? = some a at there
        rw [lookup_insert] at there
        split at there
        · next same =>
          cases there
          exact same ▸ genuine
        · exact sound.groups other a there
      · have inserted := total_insert l.groups id sample (fun _ a => probes a)
        rw [Option.not_isSome_iff_eq_none.mp fresh,← sound.candidates] at inserted
        exact inserted.symm

theorem Ledger.Within.settle {l : Ledger} {bill : Bill} (within : l.Within) (fits : l.admits bill) : (l.settle bill).Within := by
  cases bill with
  | plain cost => exact ⟨within.groups,within.candidates⟩
  | urltest id sample =>
    rw [Ledger.settle]
    split
    · exact ⟨within.groups,within.candidates⟩
    · next fresh =>
      obtain ⟨_,cached | ⟨room,few⟩⟩ := fits
      · exact absurd cached fresh
      · refine ⟨?_,few⟩
        exact Nat.le_trans Std.ExtTreeMap.size_insert_le room

/-- A bill that fits, fits after less. -/
theorem Ledger.Below.admits {l l' : Ledger} {bill : Bill} (acc : Accepted ext catalog) (below : l.Below l') (sound : l.Sound ext catalog)
    (sound' : l'.Sound ext catalog) (within : l'.Within) (genuine : bill.genuine ext catalog) (fits : l'.admits bill) : l.admits bill := by
  have lower {cost : ClientChainProjectionCost} (enough : l'.fits cost) : l.fits cost := by
    have hops := below.hops
    have bytes := below.bytes
    have few := enough.1
    have small := enough.2
    exact ⟨by omega,by omega⟩
  cases bill with
  | plain cost => exact lower fits
  | urltest id sample =>
    obtain ⟨enough,room⟩ := fits
    refine ⟨lower enough,?_⟩
    by_cases cached : (l.groups[id]?).isSome
    · exact .inl cached
    · refine .inr ?_
      have unheld := Option.not_isSome_iff_eq_none.mp cached
      have grown := total_insert l.groups id sample (fun _ a => probes a)
      rw [unheld,← sound.candidates] at grown
      have larger : (l.groups.insert id sample).size = l.groups.size + 1 := by
        rw [Std.ExtTreeMap.size_insert,if_neg]
        rw [Std.ExtTreeMap.contains_eq_isSome_getElem?]
        exact cached
      rcases room with cached' | ⟨room,few⟩
      · obtain ⟨held,there⟩ := Option.isSome_iff_exists.mp cached'
        have same : held = sample := (sound'.groups id held there).unique acc genuine
        -- The URLTest is already measured there, so that it was counted.
        have contained : ∀ (other : Nat) (a : CachedUrltestAction), (l.groups.insert id sample)[other]? = some a → l'.groups[other]? = some a := by
          intro other a found
          rw [lookup_insert] at found
          split at found
          · next equal =>
            cases found
            rw [← equal,there,same]
          · exact below.groups other a found
        have totals := total_le contained
        have sizes := size_le contained
        rw [← sound'.candidates] at totals
        have most := within.groups
        have all := within.candidates
        dsimp only [Option.elim] at grown
        exact ⟨by omega,by omega⟩
      · have totals := total_le below.groups
        have sizes := size_le below.groups
        rw [← sound.candidates,← sound'.candidates] at totals
        exact ⟨by omega,by omega⟩

theorem Ledger.Below.settle {l l' : Ledger} {bill : Bill} (acc : Accepted ext catalog) (below : l.Below l') (sound' : l'.Sound ext catalog)
    (genuine : bill.genuine ext catalog) : (l.settle bill).Below (l'.settle bill) := by
  have hops := below.hops
  have bytes := below.bytes
  have charged {cost : ClientChainProjectionCost} : (l.charge cost).Below (l'.charge cost) :=
    ⟨Nat.add_le_add_right hops _,Nat.add_le_add_right bytes _,below.groups⟩
  cases bill with
  | plain cost => exact charged
  | urltest id sample =>
    have inserted {l'' : Ledger} (holds : l''.groups[id]? = some sample) (more : (l.charge sample.cost).Below l'') :
        ((l.charge sample.cost).enrol id sample).Below l'' := by
      refine ⟨more.hops,more.bytes,?_⟩
      intro other a found
      change (l.groups.insert id sample)[other]? = some a at found
      rw [lookup_insert] at found
      split at found
      · next equal =>
        cases found
        rw [← equal,holds]
      · exact more.groups other a found
    have kept {l'' : Ledger} (fresh : l''.groups[id]? = none) (less : l.Below l'') :
        (l.charge sample.cost).Below ((l''.charge sample.cost).enrol id sample) := by
      refine ⟨Nat.add_le_add_right less.hops _,Nat.add_le_add_right less.bytes _,?_⟩
      intro other a found
      change (l''.groups.insert id sample)[other]? = some a
      have there := less.groups other a found
      rw [lookup_insert,if_neg]
      · exact there
      · rintro rfl
        rw [fresh] at there
        cases there
    rw [Ledger.settle,Ledger.settle]
    by_cases cached' : (l'.groups[id]?).isSome
    · obtain ⟨held,there⟩ := Option.isSome_iff_exists.mp cached'
      have same : held = sample := (sound'.groups id held there).unique acc genuine
      rw [if_pos cached']
      split
      · exact charged
      · exact inserted (by rw [← same]; exact there) charged
    · have fresh := Option.not_isSome_iff_eq_none.mp cached'
      rw [if_neg cached']
      split
      · exact kept fresh below
      · refine inserted ?_ (kept fresh below)
        change (l'.groups.insert id sample)[id]? = some sample
        rw [lookup_insert,if_pos rfl]

theorem Ledger.Below.more {l l' : Ledger} {bill : Bill} (below : l.Below l') : l.Below (l'.settle bill) := by
  have charged {cost : ClientChainProjectionCost} : l.Below (l'.charge cost) :=
    ⟨Nat.le_trans below.hops (Nat.le_add_right _ _),Nat.le_trans below.bytes (Nat.le_add_right _ _),below.groups⟩
  cases bill with
  | plain cost => exact charged
  | urltest id sample =>
    rw [Ledger.settle]
    split
    · exact charged
    · next fresh =>
      refine ⟨charged.hops,charged.bytes,?_⟩
      intro other a found
      change (l'.groups.insert id sample)[other]? = some a
      have there := below.groups other a found
      rw [lookup_insert,if_neg]
      · exact there
      · rintro rfl
        exact fresh (by rw [there]; rfl)

/-- Bills can be left out of a list of bills that fit. -/
theorem Ledger.Settles.sublist {l l' l'' : Ledger} {bills fewer : List Bill} (acc : Accepted ext catalog) (settles : l'.Settles bills l'')
    (sub : fewer.Sublist bills) (genuine : ∀ bill ∈ bills, bill.genuine ext catalog) (below : l.Below l') (sound : l.Sound ext catalog)
    (sound' : l'.Sound ext catalog) (within : l'.Within) : ∃ last, l.Settles fewer last := by
  induction sub generalizing l l' with
  | slnil => exact ⟨l,.nil⟩
  | @cons fewer bills bill sub ih =>
    cases settles with
    | cons fits others =>
      have genuine_bill := genuine bill List.mem_cons_self
      exact ih others (fun bill later => genuine bill (List.mem_cons_of_mem _ later)) below.more sound (sound'.settle genuine_bill) (within.settle fits)
  | @cons_cons fewer bills bill sub ih =>
    cases settles with
    | cons fits others =>
      have genuine_bill := genuine bill List.mem_cons_self
      obtain ⟨last,rest⟩ := ih others (fun bill later => genuine bill (List.mem_cons_of_mem _ later)) (below.settle acc sound' genuine_bill)
        (sound.settle genuine_bill) (sound'.settle genuine_bill) (within.settle fits)
      exact ⟨last,.cons (below.admits acc sound sound' within genuine_bill fits) rest⟩

/-! ### Plans -/

/-- What an operation is billed for, and what it gives when all of it fits. -/
structure Plan (α : Type) where
  bills : List Bill
  outcome : Except CompileError α

variable (ext catalog) in
/-- The operation does the same on every valid budget. -/
structure Follows (p : Projecting α) (plan : Plan α) : Prop where
  genuine : ∀ bill ∈ plan.bills, bill.genuine ext catalog
  valid : ∀ b, Valid ext catalog b → Valid ext catalog (p b).2
  runs : ∀ b l, Valid ext catalog b → b.ledger.Settles plan.bills l → (p b).1 = plan.outcome ∧ (p b).2.ledger = l
  settled : ∀ b a, Valid ext catalog b → (p b).1 = .ok a → plan.outcome = .ok a ∧ ∃ l, b.ledger.Settles plan.bills l

theorem Follows.pure (a : α) : Follows ext catalog (Pure.pure a) ⟨[],.ok a⟩ := by
  refine ⟨fun _ member => absurd member List.not_mem_nil,fun _ valid => valid,?_,?_⟩
  · intro b l _ settles
    cases settles
    exact ⟨rfl,rfl⟩
  · intro b a' _ done
    exact ⟨done,b.ledger,.nil⟩

theorem Follows.fail (e : CompileError) : Follows ext catalog (Fallible.fail e : Projecting α) ⟨[],.error e⟩ := by
  refine ⟨fun _ member => absurd member List.not_mem_nil,fun _ valid => valid,?_,?_⟩
  · intro b l _ settles
    cases settles
    exact ⟨rfl,rfl⟩
  · intro b a _ done
    cases done

theorem Follows.bind {p : Projecting α} {f : α → Projecting β} {bills : List Bill} {a : α} {plan : Plan β} (first : Follows ext catalog p ⟨bills,.ok a⟩)
    (next : Follows ext catalog (f a) plan) : Follows ext catalog (p >>= f) ⟨bills ++ plan.bills,plan.outcome⟩ := by
  have only {b : ClientChainProjectionBudget} {a' : α} (valid : Valid ext catalog b) (done : (p b).1 = .ok a') : a' = a := by
    have same := (first.settled b a' valid done).1
    cases same
    rfl
  refine ⟨?_,?_,?_,?_⟩
  · intro bill member
    rcases List.mem_append.mp member with here | there
    · exact first.genuine bill here
    · exact next.genuine bill there
  · intro b valid
    cases done : (p b).1 with
    | error e =>
      rw [run_bind_error done]
      exact first.valid b valid
    | ok a' =>
      rw [run_bind_ok done]
      cases only valid done
      exact next.valid _ (first.valid b valid)
  · intro b l valid settles
    obtain ⟨l',before,after⟩ := settles.split
    obtain ⟨done,same⟩ := first.runs b l' valid before
    rw [run_bind_ok done]
    rw [← same] at after
    exact next.runs _ l (first.valid b valid) after
  · intro b c valid finished
    cases done : (p b).1 with
    | error e =>
      rw [run_bind_error done] at finished
      cases finished
    | ok a' =>
      rw [run_bind_ok done] at finished
      cases only valid done
      obtain ⟨_,l',before⟩ := first.settled b a valid done
      obtain ⟨outcome,l,after⟩ := next.settled _ c (first.valid b valid) finished
      rw [(first.runs b l' valid before).2] at after
      exact ⟨outcome,l,before.append after⟩

theorem Follows.andThen {p : Projecting α} {f : α → Projecting β} {bills more : List Bill} {a : α} {outcome : Except CompileError β}
    (first : Follows ext catalog p ⟨bills,.ok a⟩) (next : Follows ext catalog (f a) ⟨more,outcome⟩) :
    Follows ext catalog (p >>= f) ⟨bills ++ more,outcome⟩ := first.bind next

theorem Follows.bind_error {p : Projecting α} {f : α → Projecting β} {bills : List Bill} {e : CompileError} (first : Follows ext catalog p ⟨bills,.error e⟩) :
    Follows ext catalog (p >>= f) ⟨bills,.error e⟩ := by
  have never {b : ClientChainProjectionBudget} {a : α} (valid : Valid ext catalog b) (done : (p b).1 = .ok a) : False := by
    have same := (first.settled b a valid done).1
    cases same
  refine ⟨first.genuine,?_,?_,?_⟩
  · intro b valid
    cases done : (p b).1 with
    | error e' =>
      rw [run_bind_error done]
      exact first.valid b valid
    | ok a => exact (never valid done).elim
  · intro b l valid settles
    obtain ⟨done,same⟩ := first.runs b l valid settles
    rw [run_bind_error done]
    exact ⟨rfl,same⟩
  · intro b c valid finished
    cases done : (p b).1 with
    | error e' =>
      rw [run_bind_error done] at finished
      cases finished
    | ok a => exact (never valid done).elim

theorem Follows.reserve {cost : ClientChainProjectionCost} {context : String} :
    Follows ext catalog (ClientChains.reserve cost context) ⟨[.plain cost],.ok ()⟩ := by
  have spec (b : ClientChainProjectionBudget) := @reserve_spec b cost context
  unfold Ensures at spec
  refine ⟨?_,?_,?_,?_⟩
  · intro bill member
    rw [List.mem_singleton.mp member]
    trivial
  · intro b valid
    have done := spec b
    generalize ClientChains.reserve cost context b = run at done ⊢
    obtain ⟨result,b'⟩ := run
    cases result with
    | error e => exact done.1 ▸ valid
    | ok u => exact done.1 ▸ { valid with }
  · intro b l valid settles
    have done := spec b
    cases settles with
    | cons fits others =>
      cases others
      generalize ClientChains.reserve cost context b = run at done ⊢
      obtain ⟨result,b'⟩ := run
      cases result with
      | error e => exact absurd fits done.2.2
      | ok u =>
        obtain ⟨rfl,_⟩ := done
        exact ⟨rfl,rfl⟩
  · intro b u valid finished
    have done := spec b
    generalize ClientChains.reserve cost context b = run at done finished
    obtain ⟨result,b'⟩ := run
    cases finished
    exact ⟨rfl,_,.cons done.2 .nil⟩

theorem Follows.outboundClientAction (acc : Accepted ext catalog) {action : CompiledOutboundAction} {bill : Bill} (known : Known catalog o)
    (projects : Projects ext catalog o action bill) : Follows ext catalog (ClientChains.outboundClientAction ext catalog o) ⟨[bill],.ok action⟩ := by
  have meets {b : ClientChainProjectionBudget} (valid : Valid ext catalog b) := outboundClientAction_meets acc valid known projects
  unfold Meets Ensures at meets
  refine ⟨?_,?_,?_,?_⟩
  · intro bill' member
    rw [List.mem_singleton.mp member]
    cases projects with
    | plain ends kind chain => trivial
    | urltest ends kind image => exact ⟨_,ends.known acc known,rfl,image⟩
  · intro b valid
    have done := meets valid
    generalize ClientChains.outboundClientAction ext catalog o b = run at done ⊢
    obtain ⟨result,b'⟩ := run
    cases result with
    | error e => exact done.2.2.1
    | ok a => exact done.2.2.1
  · intro b l valid settles
    have done := meets valid
    cases settles with
    | cons fits others =>
      cases others
      generalize ClientChains.outboundClientAction ext catalog o b = run at done ⊢
      obtain ⟨result,b'⟩ := run
      cases result with
      | error e => exact absurd fits done.2.1
      | ok a =>
        obtain ⟨rfl,_,_,same⟩ := done
        exact ⟨rfl,same⟩
  · intro b a valid finished
    have done := meets valid
    generalize ClientChains.outboundClientAction ext catalog o b = run at done finished
    obtain ⟨result,b'⟩ := run
    cases finished
    obtain ⟨rfl,fits,_,_⟩ := done
    exact ⟨rfl,_,.cons fits .nil⟩

variable (ext catalog) in
/-- The operation has a plan. -/
def Planned (p : Projecting α) : Prop := ∃ plan, Follows ext catalog p plan

theorem Planned.pure (a : α) : Planned ext catalog (Pure.pure a : Projecting α) := ⟨_,Follows.pure a⟩

theorem Planned.fail (e : CompileError) : Planned ext catalog (Fallible.fail e : Projecting α) := ⟨_,Follows.fail e⟩

theorem Planned.check (r : Except String α) : Planned ext catalog (ClientChains.check r) := by
  cases r with
  | error e => exact Planned.fail _
  | ok a => exact Planned.pure a

theorem Planned.check_bind {r : Except String α} {f : α → Projecting β} (next : ∀ a, r = .ok a → Planned ext catalog (f a)) :
    Planned ext catalog (ClientChains.check r >>= f) := by
  cases r with
  | error e => exact Planned.fail _
  | ok a => exact next a rfl

theorem Planned.bind {p : Projecting α} {f : α → Projecting β} (first : Planned ext catalog p) (next : ∀ a, Planned ext catalog (f a)) :
    Planned ext catalog (p >>= f) := by
  obtain ⟨⟨bills,outcome⟩,follows⟩ := first
  cases outcome with
  | error e => exact ⟨_,follows.bind_error⟩
  | ok a =>
    obtain ⟨plan,rest⟩ := next a
    exact ⟨_,follows.bind rest⟩

theorem Planned.foldEach {body : β → α → Projecting β} {xs : List α} (each : ∀ b, ∀ x ∈ xs, Planned ext catalog (body b x)) (b : β) :
    Planned ext catalog (Fallible.foldEach body b xs) := by
  induction xs generalizing b with
  | nil => exact Planned.pure b
  | cons x rest ih =>
    exact (each b x List.mem_cons_self).bind (fun b' => ih (fun b x later => each b x (List.mem_cons_of_mem _ later)) b')

theorem Planned.outboundClientAction (acc : Accepted ext catalog) (known : Known catalog o) :
    Planned ext catalog (ClientChains.outboundClientAction ext catalog o) := by
  obtain ⟨action,bill,projects⟩ := exists_projection acc known
  exact ⟨_,Follows.outboundClientAction acc known projects⟩

/-! ### Deliveries -/

theorem Follows.delivers {p : Projecting α} {bills : List Bill} {a : α} (follows : Follows ext catalog p ⟨bills,.ok a⟩) :
    Delivers (Valid ext catalog) (fun a' => a' = a) p := by
  intro b valid
  have kept := follows.valid b valid
  have settled := fun a' => follows.settled b a' valid
  unfold Ensures
  generalize p b = run at kept settled ⊢
  obtain ⟨e | a',b'⟩ := run
  · trivial
  · obtain ⟨same,_⟩ := settled a' rfl
    cases same
    exact ⟨rfl,kept⟩

theorem Planned.delivers {p : Projecting α} (planned : Planned ext catalog p) : Delivers (Valid ext catalog) (fun _ => True) p := by
  intro b valid
  obtain ⟨plan,follows⟩ := planned
  have kept := follows.valid b valid
  unfold Ensures
  generalize p b = run at kept ⊢
  obtain ⟨e | a,b'⟩ := run
  · trivial
  · exact ⟨trivial,kept⟩

theorem delivers_check {r : Except String α} {f : α → Projecting β} {A : β → Prop}
    (next : ∀ a, r = .ok a → Delivers (Valid ext catalog) A (f a)) : Delivers (Valid ext catalog) A (ClientChains.check r >>= f) := by
  cases r with
  | error e => exact fun _ _ => trivial
  | ok a => exact next a rfl

end NodeAgent.ClientChains
