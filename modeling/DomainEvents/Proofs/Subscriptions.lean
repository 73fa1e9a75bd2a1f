import DomainEvents.Registry
import DomainEvents.Run
import Mathlib.Algebra.Group.Nat.Defs
import Mathlib.Data.List.Nodup
import Mathlib.Data.List.Perm.Basic
import Mathlib.Logic.Function.Basic

/-!
# Subscriptions of a process

A process has any number of buses, each with subscriptions of its own, but only one source of
numbers. `Registries.step` is what can be done to all those subscriptions, and each step tells which
of them it has taken away. So a history tells which subscriptions were made on a bus and which are
gone, and those that are left must be the ones that the bus has, in the order in which they were
made: that is what a run keeps (`Registries.Kept`).

A removal by handler and a removal by number go through the same list. It is enough to know of each
which one it takes: the first that is of the handler, or has the number.
-/

namespace DomainEvents

variable {B H : Type}

/-! ## Steps -/

/-- Something that is done to the subscriptions of a process. -/
inductive RegistryAction (B H : Type) where
  | subscribe (bus : B) (handler : H)
  /-- a subscription that is not kept, as with a bus that does nothing -/
  | pass
  | unsubscribe (bus : B) (handler : H)
  | off (bus : B) (id : SubscriptionId)
  | clear (bus : B)
  | copy (bus : B)

/-- The bus whose subscriptions an action is about. -/
def RegistryAction.bus? : RegistryAction B H → Option B
  | .subscribe bus _ | .unsubscribe bus _ | .off bus _ | .clear bus | .copy bus => some bus
  | .pass => none

/-- What is answered. -/
inductive RegistryAnswer (H : Type) where
  /-- the number of a subscription -/
  | made (id : SubscriptionId)
  /-- whether there was something to remove -/
  | removed (found : Bool)
  | cleared
  | copied (entries : List (Subscription H))
deriving DecidableEq

/-- The subscriptions of a process: those of each bus, the numbers for new ones, and the copies that
were taken, the last one last. -/
structure Registries (B H : Type) where
  registry : B → Registry H := fun _ => {}
  ids : SubscriptionIds := {}
  copies : List (List (Subscription H)) := []

/-- Something that was done to the subscriptions, what was answered, and which are gone since. -/
structure RegistryDeed (B H : Type) where
  action : RegistryAction B H
  answer : RegistryAnswer H
  gone : List (Subscription H)

namespace Registries

variable [DecidableEq B] [DecidableEq H]

/-- The subscriptions of one bus change. -/
def set (s : Registries B H) (bus : B) (registry : Registry H) : Registries B H :=
  { s with registry := Function.update s.registry bus registry }

/-- The subscriptions of one bus change, and those are gone that it had before and has no more. -/
def put (s : Registries B H) (action : RegistryAction B H) (answer : RegistryAnswer H) (bus : B)
    (registry : Registry H) : Registries B H × List (RegistryDeed B H) :=
  (s.set bus registry,
    [⟨action, answer, (s.registry bus).entries.filter (· ∉ registry.entries)⟩])

/-- The subscriptions of a process after something was done to them. -/
def step (s : Registries B H) (action : RegistryAction B H) :
    Option (Registries B H × List (RegistryDeed B H)) :=
  some <|
    match action with
    | .subscribe bus handler =>
      let (id, ids) := s.ids.next
      { s with ids }.put action (.made id) bus ((s.registry bus).subscribe id handler)
    | .pass =>
      let (id, ids) := s.ids.next
      ({ s with ids }, [⟨action, .made id, []⟩])
    | .unsubscribe bus handler =>
      s.put action (.removed ((s.registry bus).hasHandler handler)) bus
        ((s.registry bus).unsubscribe handler)
    | .off bus id =>
      s.put action (.removed ((s.registry bus).hasId id)) bus ((s.registry bus).off id)
    | .clear bus => s.put action .cleared bus (s.registry bus).clear
    | .copy bus =>
      ({ s with copies := s.copies ++ [(s.registry bus).entries] },
        [⟨action, .copied (s.registry bus).entries, []⟩])

end Registries

/-! ## What a history tells -/

namespace RegistryDeed

/-- The number that was given out, if one was. -/
def id? (deed : RegistryDeed B H) : Option SubscriptionId :=
  match deed.answer with
  | .made id => some id
  | _ => none

/-- The copy that was taken, if one was. -/
def copy? (deed : RegistryDeed B H) : Option (List (Subscription H)) :=
  match deed.answer with
  | .copied entries => some entries
  | _ => none

variable [DecidableEq B] [DecidableEq H]

/-- The subscription that was made on a bus, if one was. -/
def made? (bus : B) (deed : RegistryDeed B H) : Option (Subscription H) :=
  match deed.action, deed.answer with
  | .subscribe b handler, .made id => if b = bus then some ⟨id, handler⟩ else none
  | _, _ => none

/-- Whether a subscription of a handler on a bus was found and removed. -/
def removes (bus : B) (handler : H) (deed : RegistryDeed B H) : Bool :=
  deed.action.bus? = some bus ∧ deed.answer = .removed true ∧
    ∃ entry ∈ deed.gone, entry.handler = handler

end RegistryDeed

/-- The numbers that were given out. -/
def idsIn (log : List (RegistryDeed B H)) : List SubscriptionId :=
  log.filterMap RegistryDeed.id?

/-- The copies that were taken. -/
def copiesIn (log : List (RegistryDeed B H)) : List (List (Subscription H)) :=
  log.filterMap RegistryDeed.copy?

section

variable [DecidableEq B] [DecidableEq H]

/-- The subscriptions that were made on a bus, in the order in which they were made. -/
def madeOn (bus : B) (log : List (RegistryDeed B H)) : List (Subscription H) :=
  log.filterMap (RegistryDeed.made? bus)

/-- The subscriptions that were made on a bus and are gone. -/
def goneFrom (bus : B) (log : List (RegistryDeed B H)) : List (Subscription H) :=
  (log.filter (·.action.bus? = some bus)).flatMap (·.gone)

/-- The subscriptions that were made on a bus and are not gone. -/
def leftOn (bus : B) (log : List (RegistryDeed B H)) : List (Subscription H) :=
  (madeOn bus log).filter (· ∉ goneFrom bus log)

end

/-- What may happen when a bus has the subscriptions `there bus` and the numbers `ids` have been
given out. -/
inductive RegistryDeed.Lawful (there : B → List (Subscription H)) (ids : List SubscriptionId) :
    RegistryDeed B H → Prop where
  /-- a subscription has a number that no other has -/
  | subscribe {bus : B} {handler : H} {id : SubscriptionId} (new : id ∉ ids) :
    Lawful there ids ⟨.subscribe bus handler, .made id, []⟩
  | pass {id : SubscriptionId} (new : id ∉ ids) : Lawful there ids ⟨.pass, .made id, []⟩
  /-- the first subscription of a handler is removed, and no other -/
  | unsubscribe {bus : B} {entry : Subscription H} {front back : List (Subscription H)}
      (split : there bus = front ++ entry :: back)
      (first : ∀ other ∈ front, other.handler ≠ entry.handler) :
    Lawful there ids ⟨.unsubscribe bus entry.handler, .removed true, [entry]⟩
  /-- a handler without subscriptions has none to be removed -/
  | unknown {bus : B} {handler : H} (none : ∀ entry ∈ there bus, entry.handler ≠ handler) :
    Lawful there ids ⟨.unsubscribe bus handler, .removed false, []⟩
  /-- the subscription of a number is removed, and no other -/
  | off {bus : B} {entry : Subscription H} (known : entry ∈ there bus) :
    Lawful there ids ⟨.off bus entry.id, .removed true, [entry]⟩
  /-- nothing is removed under a number that no subscription of this bus has -/
  | stale {bus : B} {id : SubscriptionId} (none : ∀ entry ∈ there bus, entry.id ≠ id) :
    Lawful there ids ⟨.off bus id, .removed false, []⟩
  /-- all subscriptions of one bus are removed -/
  | clear {bus : B} : Lawful there ids ⟨.clear bus, .cleared, there bus⟩
  | copy {bus : B} : Lawful there ids ⟨.copy bus, .copied (there bus), []⟩

@[simp] theorem idsIn_append (l m : List (RegistryDeed B H)) :
    idsIn (l ++ m) = idsIn l ++ idsIn m :=
  List.filterMap_append

@[simp] theorem copiesIn_append (l m : List (RegistryDeed B H)) :
    copiesIn (l ++ m) = copiesIn l ++ copiesIn m :=
  List.filterMap_append

section

variable [DecidableEq B]

@[simp] theorem madeOn_append (bus : B) (l m : List (RegistryDeed B H)) :
    madeOn bus (l ++ m) = madeOn bus l ++ madeOn bus m :=
  List.filterMap_append

@[simp] theorem goneFrom_append (bus : B) (l m : List (RegistryDeed B H)) :
    goneFrom bus (l ++ m) = goneFrom bus l ++ goneFrom bus m := by
  simp [goneFrom]

theorem goneFrom_singleton (bus : B) (deed : RegistryDeed B H) :
    goneFrom bus [deed] = if deed.action.bus? = some bus then deed.gone else [] := by
  by_cases own : deed.action.bus? = some bus <;> simp [goneFrom, own]

theorem Registries.registry_set (s : Registries B H) (bus : B) (registry : Registry H) (b : B) :
    (s.set bus registry).registry b = if b = bus then registry else s.registry b :=
  Function.update_apply ..

end

/-! ## One step -/

/-- What comes of the first element that is to be removed from a list: it is gone, and nothing else
is. -/
theorem eraseP_cases {α : Type} [DecidableEq α] {l : List α} (distinct : l.Nodup) (p : α → Bool) :
    (∃ front a back, l = front ++ a :: back ∧ (∀ b ∈ front, p b = false) ∧ p a = true ∧
      l.any p = true ∧ l.eraseP p = l.filter (· ∉ [a]) ∧ l.filter (· ∉ l.eraseP p) = [a]) ∨
    (∀ a ∈ l, p a = false) ∧ l.any p = false ∧ l.eraseP p = l.filter (· ∉ ([] : List α)) ∧
      l.filter (· ∉ l.eraseP p) = [] := by
  by_cases found : ∃ a ∈ l, p a = true
  case pos =>
    obtain ⟨c, found, holds⟩ := found
    obtain ⟨a, front, back, before, holds, rfl, erased⟩ := List.exists_of_eraseP found holds
    obtain ⟨out, -⟩ := List.nodup_cons.mp (List.nodup_middle.mp distinct)
    have others : ∀ b ∈ front ++ back, b ≠ a := by
      intro b there same
      exact out (same ▸ there)
    have kept : front ++ back = (front ++ a :: back).filter (· ∉ [a]) := by
      rw [List.filter_append, List.filter_cons_of_neg (by simp), ← List.filter_append,
        List.filter_eq_self.mpr (by simpa using others)]
    refine .inl ⟨front, a, back, rfl, by simpa using before, holds, by simp [holds],
      erased.trans kept, ?_⟩
    have gone : ∀ l ⊆ front ++ back, l.filter (· ∉ front ++ back) = [] := by
      intro l part
      refine List.filter_eq_nil_iff.mpr fun b there => ?_
      simpa [or_iff_not_imp_left] using part there
    rw [erased, List.filter_append, List.filter_cons_of_pos (by simpa using out),
      gone front (List.subset_append_left ..), gone back (List.subset_append_right ..)]
    rfl
  case neg =>
    have none : ∀ a ∈ l, p a = false := by simpa using found
    have same : l.eraseP p = l := List.eraseP_of_forall_not (by simpa using none)
    refine .inr ⟨none, by simpa using none, by simpa using none, ?_⟩
    rw [same]
    exact List.filter_eq_nil_iff.mpr fun a there => by simpa using there

namespace Registries

variable [DecidableEq B] [DecidableEq H] {s t : Registries B H} {action : RegistryAction B H}
  {told : List (RegistryDeed B H)}

/-- What a step does. The subscriptions that a bus has after it are those before it without the ones
that are gone, and the one that was made. -/
structure Does (s t : Registries B H) (ids : List SubscriptionId) (deed : RegistryDeed B H) :
    Prop where
  lawful : deed.Lawful (fun bus => (s.registry bus).entries) ids
  entries : ∀ bus, (t.registry bus).entries =
    (s.registry bus).entries.filter (· ∉ goneFrom bus [deed]) ++ madeOn bus [deed]
  copies : t.copies = s.copies ++ copiesIn [deed]

/-- A step gives out the next number, or none. -/
theorem numbers_of_step (goes : s.step action = some (t, told)) :
    idsIn told = [] ∧ t.ids = s.ids ∨ idsIn told = [s.ids.next.1] ∧ t.ids = s.ids.next.2 := by
  obtain ⟨rfl, rfl⟩ := Prod.mk.inj (Option.some.inj goes)
  cases action with
  | subscribe | pass => exact .inr ⟨rfl, rfl⟩
  | unsubscribe | off | clear | copy => exact .inl ⟨rfl, rfl⟩

/-- A change to the subscriptions of one bus is none to those of the others. -/
theorem entries_set {bus : B} {registry : Registry H} {deed : RegistryDeed B H}
    (about : deed.action.bus? = some bus)
    (change : registry.entries =
      (s.registry bus).entries.filter (· ∉ deed.gone) ++ madeOn bus [deed])
    (only : ∀ b, b ≠ bus → madeOn b [deed] = []) (b : B) :
    ((s.set bus registry).registry b).entries =
      (s.registry b).entries.filter (· ∉ goneFrom b [deed]) ++ madeOn b [deed] := by
  rw [registry_set, goneFrom_singleton, about]
  by_cases own : b = bus
  · rw [if_pos own, own, if_pos rfl, change]
  · rw [if_neg own, if_neg (by simpa using Ne.symm own), only b own]
    simp

/-- A removal takes away what is gone, makes nothing and gives out nothing. -/
theorem does_of_put {bus : B} {registry : Registry H} {answer : RegistryAnswer H}
    {gone : List (Subscription H)} {ids : List SubscriptionId} (about : action.bus? = some bus)
    (lost : (s.registry bus).entries.filter (· ∉ registry.entries) = gone)
    (lawful : RegistryDeed.Lawful (fun bus => (s.registry bus).entries) ids ⟨action, answer, gone⟩)
    (change : registry.entries = (s.registry bus).entries.filter (· ∉ gone))
    (removal : answer = .cleared ∨ ∃ found, answer = .removed found) :
    ∃ deed, (s.put action answer bus registry).2 = [deed] ∧
      Does s (s.put action answer bus registry).1 ids deed := by
  have made (b : B) : madeOn b [(⟨action, answer, gone⟩ : RegistryDeed B H)] = [] := by
    rcases removal with rfl | ⟨found, rfl⟩ <;> simp [madeOn, RegistryDeed.made?]
  refine ⟨⟨action, answer, gone⟩, ?_, lawful, entries_set about ?_ fun b _ => made b, ?_⟩
  · rw [put, lost]
  · rw [change, made, List.append_nil]
  · rcases removal with rfl | ⟨found, rfl⟩ <;> simp [put, set, copiesIn, RegistryDeed.copy?]

/-- A removal by handler and a removal by number differ only in what they look for. -/
theorem does_of_eraseP {bus : B} {ids : List SubscriptionId} (about : action.bus? = some bus)
    (distinct : (s.registry bus).entries.Nodup) (p : Subscription H → Bool)
    (first : ∀ front entry back, (s.registry bus).entries = front ++ entry :: back →
      (∀ other ∈ front, p other = false) → p entry = true →
      RegistryDeed.Lawful (fun bus => (s.registry bus).entries) ids
        ⟨action, .removed true, [entry]⟩)
    (none : (∀ entry ∈ (s.registry bus).entries, p entry = false) →
      RegistryDeed.Lawful (fun bus => (s.registry bus).entries) ids
        ⟨action, .removed false, []⟩) :
    ∃ deed, (s.put action (.removed ((s.registry bus).entries.any p)) bus
        ⟨(s.registry bus).entries.eraseP p⟩).2 = [deed] ∧
      Does s (s.put action (.removed ((s.registry bus).entries.any p)) bus
        ⟨(s.registry bus).entries.eraseP p⟩).1 ids deed := by
  rcases eraseP_cases distinct p with
    ⟨front, entry, back, split, before, own, found, erased, gone⟩ | ⟨other, found, erased, gone⟩
  · rw [found]
    exact does_of_put about gone (first front entry back split before own) erased (.inr ⟨_, rfl⟩)
  · rw [found]
    exact does_of_put about gone (none other) erased (.inr ⟨_, rfl⟩)

/-- Each step is as it may be. -/
theorem does_of_step (goes : s.step action = some (t, told))
    (distinct : ∀ bus, (s.registry bus).entries.Nodup) {ids : List SubscriptionId}
    (new : s.ids.next.1 ∉ ids) : ∃ deed, told = [deed] ∧ Does s t ids deed := by
  obtain ⟨rfl, rfl⟩ := Prod.mk.inj (Option.some.inj goes)
  cases action with
  | subscribe bus handler =>
    have none : (s.registry bus).entries.filter
        (· ∉ ((s.registry bus).subscribe s.ids.next.1 handler).entries) = [] := by
      refine List.filter_eq_nil_iff.mpr fun entry there => ?_
      simp [there]
    refine ⟨⟨.subscribe bus handler, .made s.ids.next.1, []⟩, ?_, .subscribe new, ?_, ?_⟩
    · exact congrArg (fun gone => [RegistryDeed.mk _ _ gone]) none
    · refine entries_set rfl ?_ ?_
      · simp [madeOn, RegistryDeed.made?, SubscriptionIds.next]
      · intro b other
        simp [madeOn, RegistryDeed.made?, Ne.symm other]
    · simp [copiesIn, RegistryDeed.copy?, put, set]
  | pass =>
    refine ⟨_, rfl, .pass new, ?_, ?_⟩
    · simp [goneFrom_singleton, madeOn, RegistryAction.bus?, RegistryDeed.made?]
    · simp [copiesIn, RegistryDeed.copy?]
  | unsubscribe bus handler =>
    refine does_of_eraseP rfl (distinct bus) (·.handler = handler) ?_ ?_
    · intro front entry back split before own
      obtain rfl : entry.handler = handler := by simpa using own
      exact .unsubscribe split (by simpa using before)
    · intro none
      exact .unknown (by simpa using none)
  | off bus id =>
    refine does_of_eraseP rfl (distinct bus) (·.id = id) ?_ ?_
    · intro front entry back split before own
      obtain rfl : entry.id = id := by simpa using own
      exact .off (by simp [split])
    · intro none
      exact .stale (by simpa using none)
  | clear bus =>
    refine does_of_put rfl ?_ .clear ?_ (.inl rfl)
    · simp [Registry.clear]
    · simp [Registry.clear]
  | copy bus =>
    refine ⟨_, rfl, .copy, ?_, ?_⟩
    · simp [goneFrom_singleton, madeOn, RegistryAction.bus?, RegistryDeed.made?]
    · simp [copiesIn, RegistryDeed.copy?]

end Registries

/-! ## Runs -/

section

variable [DecidableEq B] {deed : RegistryDeed B H} {bus other : B} {entry twin : Subscription H}
  {there : B → List (Subscription H)} {ids : List SubscriptionId}

theorem RegistryDeed.id?_of_made? (made : deed.made? bus = some entry) :
    deed.id? = some entry.id := by
  revert made
  fun_cases RegistryDeed.made? bus deed with
  | case1 handler id answer =>
    rintro ⟨⟩
    rw [RegistryDeed.id?, answer]
  | case2 => nofun
  | case3 => nofun

theorem RegistryDeed.made?_unique (made : deed.made? bus = some entry)
    (again : deed.made? other = some twin) : bus = other ∧ entry = twin := by
  revert made
  fun_cases RegistryDeed.made? bus deed with
  | case1 handler id answer action =>
    rintro ⟨⟩
    rw [RegistryDeed.made?, action, answer] at again
    simpa using again
  | case2 => nofun
  | case3 => nofun

theorem mem_madeOn {log : List (RegistryDeed B H)} :
    entry ∈ madeOn bus log ↔ ∃ deed ∈ log, deed.made? bus = some entry :=
  List.mem_filterMap

theorem id_mem_idsIn {log : List (RegistryDeed B H)} (made : entry ∈ madeOn bus log) :
    entry.id ∈ idsIn log := by
  obtain ⟨deed, there, made⟩ := mem_madeOn.mp made
  exact List.mem_filterMap.mpr ⟨deed, there, RegistryDeed.id?_of_made? made⟩

/-- What a step takes away is there before. -/
theorem RegistryDeed.Lawful.gone (lawful : deed.Lawful there ids)
    (distinct : ∀ bus, (there bus).Nodup) (bus : B) :
    (goneFrom bus [deed]).Nodup ∧ goneFrom bus [deed] ⊆ there bus := by
  rw [goneFrom_singleton]
  split
  case isFalse => simp
  case isTrue about =>
    cases lawful with
    | unsubscribe split =>
      obtain rfl := Option.some.inj about
      simp [split]
    | off mem =>
      obtain rfl := Option.some.inj about
      simpa using mem
    | clear =>
      obtain rfl := Option.some.inj about
      exact ⟨distinct _, List.Subset.refl _⟩
    | _ => simp

/-- A removal takes away one subscription of its handler. -/
theorem RegistryDeed.Lawful.countP_gone [DecidableEq H] (lawful : deed.Lawful there ids)
    (kept : deed.action ≠ .clear bus) (handler : H) :
    (goneFrom bus [deed]).countP (·.handler = handler) =
      [deed].countP (·.removes bus handler) := by
  rw [goneFrom_singleton]
  by_cases about : deed.action.bus? = some bus
  case neg => simp [about, RegistryDeed.removes]
  case pos =>
    rw [if_pos about]
    cases lawful with
    | clear =>
      obtain rfl := Option.some.inj about
      exact absurd rfl kept
    | unsubscribe | off => simp_all [List.countP_singleton, RegistryDeed.removes]
    | _ => simp [RegistryDeed.removes]

/-- A step that makes a subscription takes none away. -/
theorem RegistryDeed.Lawful.gone_eq_nil (lawful : deed.Lawful there ids)
    (made : deed.made? bus = some entry) : deed.gone = [] := by
  cases lawful with
  | subscribe | pass | copy => rfl
  | _ => cases made

end

namespace Registries

variable [DecidableEq B] [DecidableEq H]

/-- What a run keeps: how the subscriptions that there are, and the copies that were taken, come
from what was done. -/
structure Kept (log : List (RegistryDeed B H)) (s : Registries B H) : Prop where
  /-- no number is given out twice, by whatever bus -/
  distinct : (idsIn log).Nodup
  /-- a number belongs to one subscription of one bus -/
  owners : ∀ {bus other entry twin}, entry ∈ madeOn bus log → twin ∈ madeOn other log →
    entry.id = twin.id → bus = other ∧ entry = twin
  /-- each bus has the subscriptions that were made on it and are not gone, in their order -/
  entries : ∀ bus, (s.registry bus).entries = leftOn bus log
  /-- only what was made is gone, and nothing twice -/
  made : ∀ bus, (madeOn bus log).Nodup
  gone : ∀ bus, (goneFrom bus log).Nodup ∧ goneFrom bus log ⊆ madeOn bus log
  /-- whatever was done, it did what it may do to the subscriptions that there were -/
  lawful : ∀ {before deed after}, log = before ++ deed :: after →
    deed.Lawful (leftOn · before) (idsIn before)
  /-- the copies are as they were taken -/
  copies : s.copies = copiesIn log

theorem Kept.start : Kept ([] : List (RegistryDeed B H)) {} where
  distinct := List.nodup_nil
  owners := nofun
  entries _ := rfl
  made _ := List.nodup_nil
  gone _ := ⟨List.nodup_nil, List.Subset.refl _⟩
  lawful cut := by simp at cut
  copies := rfl

/-- Every step keeps it. -/
theorem Kept.keep {log : List (RegistryDeed B H)} {deed : RegistryDeed B H} {s t : Registries B H}
    (kept : Kept log s) (does : Does s t (idsIn log) deed)
    (numbers : idsIn [deed] = [] ∨ idsIn [deed] = [s.ids.next.1])
    (new : s.ids.next.1 ∉ idsIn log) : Kept (log ++ [deed]) t := by
  have same : (fun bus => (s.registry bus).entries) = (leftOn · log) := funext kept.entries
  have lawful := does.lawful
  rw [same] at lawful
  have apart (bus : B) : (leftOn bus log).Nodup := (kept.made bus).filter _
  -- the number of a new subscription is that of no other
  have fresh {bus entry} (made : entry ∈ madeOn bus [deed]) : entry.id ∉ idsIn log := by
    have given := id_mem_idsIn made
    rcases numbers with none | one
    · rw [none] at given
      cases given
    · rw [one, List.mem_singleton] at given
      rw [given]
      exact new
  have now {bus entry} (made : entry ∈ madeOn bus [deed]) : deed.made? bus = some entry := by
    simpa [madeOn] using made
  refine ⟨?_, ?_, ?_, ?_, ?_, ?_, ?_⟩
  · rw [idsIn_append]
    rcases numbers with none | one
    · rw [none, List.append_nil]
      exact kept.distinct
    · rw [one]
      refine List.nodup_append.mpr ⟨kept.distinct, List.nodup_singleton _, ?_⟩
      rintro id given _ last rfl
      exact new (List.mem_singleton.mp last ▸ given)
  · intro bus other entry twin made again same
    rw [madeOn_append, List.mem_append] at made again
    rcases made with made | made <;> rcases again with again | again
    · exact kept.owners made again same
    · exact absurd (same ▸ id_mem_idsIn made) (fresh again)
    · exact absurd (same ▸ id_mem_idsIn again) (fresh made)
    · exact RegistryDeed.made?_unique (now made) (now again)
  · intro bus
    have stays : (madeOn bus [deed]).filter (· ∉ goneFrom bus (log ++ [deed])) =
        madeOn bus [deed] := by
      refine List.filter_eq_self.mpr fun entry made => ?_
      have before : entry ∉ goneFrom bus log :=
        fun gone => fresh made (id_mem_idsIn ((kept.gone bus).2 gone))
      simp [goneFrom_singleton, lawful.gone_eq_nil (now made), before]
    rw [does.entries, kept.entries, leftOn, leftOn, madeOn_append, List.filter_append, stays,
      List.filter_filter]
    simp [Bool.and_comm]
  · intro bus
    rw [madeOn_append]
    refine List.nodup_append.mpr ⟨kept.made bus, ?_, ?_⟩
    · rw [madeOn, List.filterMap_cons]
      cases deed.made? bus <;> simp
    · rintro entry made _ again rfl
      exact fresh again (id_mem_idsIn made)
  · intro bus
    obtain ⟨distinct, there⟩ := lawful.gone apart bus
    rw [goneFrom_append, madeOn_append]
    refine ⟨List.nodup_append.mpr ⟨(kept.gone bus).1, distinct, ?_⟩, ?_⟩
    · rintro entry gone _ again rfl
      have left := (List.mem_filter.mp (there again)).2
      simp [gone] at left
    · refine List.append_subset.mpr ⟨?_, ?_⟩
      · exact List.Subset.trans (kept.gone bus).2 (List.subset_append_left ..)
      · intro entry gone
        exact List.mem_append_left _ (List.mem_filter.mp (there gone)).1
  · intro before d after cut
    rcases List.eq_nil_or_concat after with rfl | ⟨after, last, rfl⟩
    · obtain ⟨rfl, one⟩ := List.append_inj' cut rfl
      obtain rfl := List.singleton_inj.mp one
      exact lawful
    · rw [List.concat_eq_append, ← List.cons_append, ← List.append_assoc] at cut
      exact kept.lawful (List.append_inj' cut rfl).1
  · rw [does.copies, kept.copies, copiesIn_append]

/-- A copy stays as it is, whatever is done later. -/
theorem copies_of_run {log : List (RegistryDeed B H)} {s t : Registries B H}
    (run : Run step s log t) : s.copies <+: t.copies := by
  refine run.invariant (P := fun _ t => s.copies <+: t.copies) (List.prefix_refl _) ?_
  intro log t action u told kept goes
  obtain ⟨rfl, rfl⟩ := Prod.mk.inj (Option.some.inj goes)
  cases action with
  | copy bus => exact kept.trans (List.prefix_append ..)
  | _ => exact kept

/-- The numbers that are given out first. -/
def numbersTo (n : Nat) : List SubscriptionId :=
  (List.range n).map fun i => (⟨i⟩ : SubscriptionIds).next.1

omit [DecidableEq B] [DecidableEq H] in
theorem numbersTo_succ (n : Nat) :
    numbersTo (n + 1) = numbersTo n ++ [(⟨n⟩ : SubscriptionIds).next.1] := by
  rw [numbersTo, List.range_succ, List.map_append]
  rfl

/-- No more numbers than there are words of 64 bits are distinct. -/
theorem nodup_numbersTo {n : Nat} (few : n ≤ 2 ^ 64) : (numbersTo n).Nodup := by
  refine List.Nodup.map_on ?_ List.nodup_range
  intro i small j below same
  have words : (i + 1) % 2 ^ 64 = (j + 1) % 2 ^ 64 := congrArg SubscriptionId.number same
  rw [List.mem_range] at small below
  omega

/-- The numbers that are given out are the first ones, and as long as they are few every step keeps
what is to be kept. -/
theorem kept_of_run {log : List (RegistryDeed B H)} {s : Registries B H}
    (run : Run step ({} : Registries B H) log s) (few : (idsIn log).length < 2 ^ 64) :
    Kept log s := by
  let P (log : List (RegistryDeed B H)) (s : Registries B H) : Prop :=
    idsIn log = numbersTo s.ids.given ∧ ((idsIn log).length < 2 ^ 64 → Kept log s)
  refine (run.invariant (P := P) ⟨rfl, fun _ => .start⟩ ?_).2 few
  rintro log s action t told ⟨given, kept⟩ goes
  have numbers := numbers_of_step goes
  refine ⟨?_, ?_⟩
  · rw [idsIn_append, given]
    rcases numbers with ⟨none, same⟩ | ⟨one, next⟩
    · rw [none, same, List.append_nil]
    · rw [one, next, SubscriptionIds.next, numbersTo_succ]
      rfl
  · intro few
    rw [idsIn_append, List.length_append] at few
    have kept := kept (by omega)
    have new : s.ids.next.1 ∉ idsIn log := by
      have length : (idsIn log).length = s.ids.given := by
        rw [given, numbersTo, List.length_map, List.length_range]
      have distinct : (numbersTo (s.ids.given + 1)).Nodup := nodup_numbersTo (by omega)
      rw [numbersTo_succ, ← given] at distinct
      intro old
      exact (List.nodup_append.mp distinct).2.2 _ old _ (List.mem_singleton_self _) rfl
    have apart (bus : B) : (s.registry bus).entries.Nodup := by
      rw [kept.entries bus]
      exact (kept.made bus).filter _
    obtain ⟨deed, rfl, does⟩ := does_of_step goes apart new
    exact kept.keep does (numbers.imp And.left And.left) new

/-! ## Counting -/

/-- Of the subscriptions of a handler some are gone and the others are left. -/
theorem Kept.balance {log : List (RegistryDeed B H)} {s : Registries B H} (kept : Kept log s)
    (bus : B) (handler : H) :
    (leftOn bus log).countP (·.handler = handler) +
      (goneFrom bus log).countP (·.handler = handler) =
        (madeOn bus log).countP (·.handler = handler) := by
  obtain ⟨distinct, part⟩ := kept.gone bus
  have gone : ((madeOn bus log).filter (· ∈ goneFrom bus log)).Perm (goneFrom bus log) := by
    refine (List.perm_ext_iff_of_nodup ((kept.made bus).filter _) distinct).mpr fun entry => ?_
    rw [List.mem_filter, decide_eq_true_eq]
    exact ⟨And.right, fun gone => ⟨part gone, gone⟩⟩
  rw [List.countP_eq_countP_filter_add (madeOn bus log) _ (· ∈ goneFrom bus log),
    gone.countP_eq, leftOn, Nat.add_comm]
  simp

/-- Unless a bus was cleared, as many subscriptions of a handler are gone as were found and removed.
-/
theorem Kept.removals {log : List (RegistryDeed B H)} {s : Registries B H} (kept : Kept log s)
    {bus : B} (uncleared : ∀ deed ∈ log, deed.action ≠ .clear bus) (handler : H) :
    (goneFrom bus log).countP (·.handler = handler) = log.countP (·.removes bus handler) := by
  have each : ∀ deed ∈ log, (goneFrom bus [deed]).countP (·.handler = handler) =
      [deed].countP (·.removes bus handler) := by
    intro deed there
    obtain ⟨before, after, cut⟩ := List.append_of_mem there
    exact (kept.lawful cut).countP_gone (uncleared deed there) handler
  clear kept uncleared
  induction log with
  | nil => rfl
  | cons deed log ih =>
    obtain ⟨one, others⟩ := List.forall_mem_cons.mp each
    rw [← List.singleton_append, goneFrom_append, List.countP_append, List.countP_append, one,
      ih others]

end Registries

end DomainEvents
