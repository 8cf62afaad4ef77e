/-
The interface of an instance is what its bundle offers.

A bundle offers its public operations that are not static. All other members are hidden: they are passed
over before any name is looked at, so a hidden member neither takes a place in the interface nor stands
in the way of an operation that has its name. What is left is a list of offered members, each of which
is bound to the instance, and the interface is the map that this list makes: a name keeps the place of
the first member that it is offered by, and the body of the last.

The main statement is `Instance.interface_public`.
-/
import Graft.Bundle
import Graft.Proofs.Overwriting

set_option autoImplicit false

namespace Graft

/-! ## 1. Offered and hidden members -/

/-- Whether a member is an operation. -/
def MemberKind.isOperation : MemberKind → Bool
  | .operation _ _ => true
  | .property _ => false

namespace Member

/-- Whether a member can be used from outside on an instance: it is an operation, it is public, and it
is not static. -/
def isOffered (member : Member) : Bool :=
  decide (member.visibility = .publicAccess) && !member.isStatic && member.kind.isOperation

/-- A member that cannot: it is private or protected, or static, or a property. -/
def Hidden (member : Member) : Prop :=
  member.visibility = .privateAccess ∨ member.visibility = .protectedAccess ∨
    member.isStatic = true ∨ ∃ hint, member.kind = .property hint

variable {member : Member}

theorem isOffered_iff : member.isOffered = true ↔
    member.visibility = .publicAccess ∧ member.isStatic = false ∧
      ∃ signature body, member.kind = .operation signature body := by
  have hkind : member.kind.isOperation = true ↔
      ∃ signature body, member.kind = .operation signature body := by
    cases member.kind with
    | operation signature body => exact iff_of_true rfl ⟨signature, body, rfl⟩
    | property hint =>
      refine iff_of_false Bool.false_ne_true ?_
      rintro ⟨_, _, h⟩
      cases h
  rw [isOffered, Bool.and_eq_true, Bool.and_eq_true, decide_eq_true_iff, Bool.not_eq_true', hkind,
    and_assoc]

/-- Every member is offered or hidden, and none is both. -/
theorem isOffered_eq_false_iff : member.isOffered = false ↔ member.Hidden := by
  rw [Bool.eq_false_iff, ne_eq, isOffered_iff]
  constructor
  · intro h
    by_contra hhidden
    obtain ⟨hprivate, hprotected, hstatic, hproperty⟩ : _ ∧ _ ∧ _ ∧ _ := by
      simpa only [Hidden, not_or] using hhidden
    apply h
    refine ⟨?_, Bool.eq_false_iff.mpr hstatic, ?_⟩
    · cases hvisibility : member.visibility with
      | publicAccess => rfl
      | protectedAccess => exact absurd hvisibility hprotected
      | privateAccess => exact absurd hvisibility hprivate
    · cases hkind : member.kind with
      | operation signature body => exact ⟨signature, body, rfl⟩
      | property hint => exact absurd ⟨hint, hkind⟩ hproperty
  · rintro hhidden ⟨hpublic, hstatic, signature, body, hkind⟩
    rcases hhidden with h | h | h | ⟨hint, h⟩
    · rw [hpublic] at h
      cases h
    · rw [hpublic] at h
      cases h
    · rw [hstatic] at h
      cases h
    · rw [hkind] at h
      cases h

/-- What becomes a handler is public, not static and an operation. -/
theorem exists_of_handler? {owner : Owner} {handler : Handler}
    (h : member.handler? owner = some handler) :
    member.visibility = .publicAccess ∧ member.isStatic = false ∧
      ∃ signature body, member.kind = .operation signature body ∧
        handler = ⟨signature, some owner, body owner⟩ := by
  unfold handler? at h
  split at h
  · next signature body hkind =>
    split at h
    · next hpublic =>
      exact ⟨hpublic.1, hpublic.2, signature, body, hkind, (Option.some.inj h).symm⟩
    · exact absurd h (by simp)
  · exact absurd h (by simp)

/-- An offered member becomes a handler with its signature and its body, bound to the owner. -/
theorem handler?_eq_some_iff {owner : Owner} {handler : Handler} (h : member.isOffered = true) :
    member.handler? owner = some handler ↔
      ∃ signature body, member.kind = .operation signature body ∧
        handler = ⟨signature, some owner, body owner⟩ := by
  obtain ⟨hpublic, hstatic, signature, body, hkind⟩ := isOffered_iff.mp h
  have hbound : member.handler? owner = some ⟨signature, some owner, body owner⟩ := by
    unfold handler?
    rw [hkind]
    exact if_pos ⟨hpublic, hstatic⟩
  rw [hbound, Option.some_inj]
  constructor
  · rintro rfl
    exact ⟨signature, body, hkind, rfl⟩
  · rintro ⟨signature', body', hkind', rfl⟩
    obtain ⟨rfl, rfl⟩ := MemberKind.operation.inj (hkind.symm.trans hkind')
    rfl

theorem handler?_isSome (owner : Owner) (h : member.isOffered = true) :
    (member.handler? owner).isSome = true := by
  obtain ⟨-, -, signature, body, hkind⟩ := isOffered_iff.mp h
  exact Option.isSome_iff_exists.mpr ⟨_, (handler?_eq_some_iff h).mpr ⟨signature, body, hkind, rfl⟩⟩

/-- A hidden member does not become a handler. -/
theorem handler?_eq_none (owner : Owner) (h : member.isOffered = false) :
    member.handler? owner = none := by
  cases hhandler : member.handler? owner with
  | none => rfl
  | some handler =>
    obtain ⟨hpublic, hstatic, signature, body, hkind, -⟩ := exists_of_handler? hhandler
    have hoffered : member.isOffered = true :=
      isOffered_iff.mpr ⟨hpublic, hstatic, signature, body, hkind⟩
    rw [h] at hoffered
    cases hoffered

end Member

/-! ## 2. What a bundle offers -/

/-- The members that a bundle offers, in the order of their declaration. -/
def Bundle.offered (bundle : Bundle) : List Member := bundle.members.filter Member.isOffered

/-- Lists of members that come from one another when hidden members are put in or taken out, anywhere. -/
inductive Member.HiddenEdits : List Member → List Member → Prop
  | refl (members : List Member) : HiddenEdits members members
  | insert {members before after : List Member} {member : Member}
      (edits : HiddenEdits members (before ++ after)) (hidden : member.Hidden) :
      HiddenEdits members (before ++ member :: after)
  | delete {members before after : List Member} {member : Member}
      (edits : HiddenEdits members (before ++ member :: after)) (hidden : member.Hidden) :
      HiddenEdits members (before ++ after)

/-- One hidden member more or less leaves what is offered. -/
theorem Member.filter_isOffered_of_hidden {member : Member} (h : member.Hidden)
    (before after : List Member) :
    (before ++ member :: after).filter isOffered = (before ++ after).filter isOffered := by
  have hpassed : ¬ member.isOffered = true := by
    rw [isOffered_eq_false_iff.mpr h]
    decide
  rw [List.filter_append, List.filter_cons_of_neg hpassed, List.filter_append]

/-- The run lemma: edits of hidden members leave what is offered. -/
theorem Member.HiddenEdits.filter_isOffered {members edited : List Member}
    (h : HiddenEdits members edited) : edited.filter isOffered = members.filter isOffered := by
  induction h with
  | refl => rfl
  | insert _ hidden ih => rw [filter_isOffered_of_hidden hidden, ih]
  | delete _ hidden ih => rw [← filter_isOffered_of_hidden hidden, ih]

/-! ## 3. The interface as a map of what is offered -/

namespace Instance

variable (unit : Instance)

/-- The entry that a member makes in the interface of its owner, if any. -/
def bound? (owner : Owner) (member : Member) : Option (String × Handler) :=
  (member.handler? owner).map (member.name, ·)

/-- Hidden members make no entries. -/
theorem interface_eq_ofList :
    unit.interface = OrderedMap.ofList (unit.bundle.offered.filterMap (bound? unit.owner)) := by
  have hskip : ∀ member : Member, (if member.isOffered = true then bound? unit.owner member else none)
      = bound? unit.owner member := by
    intro member
    by_cases h : member.isOffered = true
    · rw [if_pos h]
    · rw [if_neg h, bound?, Member.handler?_eq_none _ (Bool.eq_false_iff.mpr h), Option.map_none]
  rw [Bundle.offered, List.filterMap_filter]
  simp only [hskip]
  rfl

variable {unit}

theorem isOffered_of_mem {member : Member} (h : member ∈ unit.bundle.offered) :
    member.isOffered = true :=
  (List.mem_filter.mp h).2

/-- Offered members make one entry each, under their name. -/
theorem map_fst_entries {members : List Member} (owner : Owner)
    (h : ∀ member ∈ members, member.isOffered = true) :
    (members.filterMap (bound? owner)).map Prod.fst = members.map Member.name := by
  induction members with
  | nil => rfl
  | cons member rest ih =>
    obtain ⟨hmember, hrest⟩ := List.forall_mem_cons.mp h
    obtain ⟨handler, hhandler⟩ :=
      Option.isSome_iff_exists.mp (Member.handler?_isSome owner hmember)
    have hentry : bound? owner member = some (member.name, handler) := by
      rw [bound?, hhandler, Option.map_some]
    rw [List.filterMap_cons_some hentry, List.map_cons, ih hrest, List.map_cons]

/-- The last entry of a name is the one of the last offered member of that name. -/
theorem getLast?_entries {members : List Member} (owner : Owner) (name : String)
    (h : ∀ member ∈ members, member.isOffered = true) :
    (((members.filterMap (bound? owner)).filter (fun entry => entry.1 = name)).getLast?).map Prod.snd
      = ((members.filter (fun member => member.name = name)).getLast?).bind (·.handler? owner) := by
  induction members using List.reverseRecOn with
  | nil => rfl
  | append_singleton before member ih =>
    have hmember : member.isOffered = true := h member (by simp)
    have hbefore := ih fun other hother => h other (List.mem_append_left _ hother)
    obtain ⟨handler, hhandler⟩ :=
      Option.isSome_iff_exists.mp (Member.handler?_isSome owner hmember)
    have hentry : [member].filterMap (bound? owner) = [(member.name, handler)] := by
      rw [List.filterMap_cons_some (by rw [bound?, hhandler, Option.map_some]), List.filterMap_nil]
    rw [List.filterMap_append, hentry, filter_concat, filter_concat]
    by_cases hname : member.name = name
    · rw [if_pos (decide_eq_true hname), if_pos (decide_eq_true hname), List.getLast?_concat,
        List.getLast?_concat, Option.map_some, Option.bind_some, hhandler]
    · rw [if_neg (by simpa using hname), if_neg (by simpa using hname), hbefore]

/-- The names of the interface are the names that are offered, each where it first is. -/
theorem keys_interface (unit : Instance) :
    unit.interface.keys = (unit.bundle.offered.map Member.name).eraseDups := by
  rw [interface_eq_ofList, OrderedMap.keys_ofList,
    map_fst_entries unit.owner fun member hmember => isOffered_of_mem hmember]

/-- Under a name stands the last member that is offered under it. -/
theorem get?_interface (unit : Instance) (name : String) :
    unit.interface.get? name
      = ((unit.bundle.offered.filter (fun member => member.name = name)).getLast?).bind
          (·.handler? unit.owner) := by
  rw [interface_eq_ofList, OrderedMap.get?_ofList,
    getLast?_entries unit.owner name fun member hmember => isOffered_of_mem hmember]

/-! ## 4. The public interface -/

/-- **The interface of an instance is what its bundle offers.** Whatever the members are, the names of
the interface are those of the public operations that are not static, each once and in the order in
which they first come; under a name stands the signature and the body of the last such member, bound to
the instance; and private, protected and static members and properties may be put in or taken out
anywhere, under any name, and nothing changes. -/
theorem interface_public (unit : Instance) :
    unit.interface.keys = (unit.bundle.offered.map Member.name).eraseDups ∧
      unit.interface.keys.Nodup ∧
      (∀ name handler, unit.interface.get? name = some handler ↔
        ∃ member signature body,
          (unit.bundle.offered.filter (fun member => member.name = name)).getLast? = some member ∧
            member.kind = .operation signature body ∧
            handler = ⟨signature, some unit.owner, body unit.owner⟩) ∧
      ∀ members, Member.HiddenEdits unit.bundle.members members →
        (⟨unit.identity, ⟨unit.bundle.name, members⟩⟩ : Instance).interface = unit.interface := by
  refine ⟨keys_interface unit, unit.interface.keys_nodup, ?_, ?_⟩
  · intro name handler
    rw [get?_interface, Option.bind_eq_some_iff]
    constructor
    · rintro ⟨member, hlast, hhandler⟩
      have hin := List.mem_of_getLast? hlast
      have hoffered := isOffered_of_mem (List.mem_filter.mp hin).1
      obtain ⟨signature, body, hkind, heq⟩ := (Member.handler?_eq_some_iff hoffered).mp hhandler
      exact ⟨member, signature, body, hlast, hkind, heq⟩
    · rintro ⟨member, signature, body, hlast, hkind, heq⟩
      have hin := List.mem_of_getLast? hlast
      have hoffered := isOffered_of_mem (List.mem_filter.mp hin).1
      exact ⟨member, hlast, (Member.handler?_eq_some_iff hoffered).mpr ⟨signature, body, hkind, heq⟩⟩
  · intro members hedits
    have hoffered : (⟨unit.bundle.name, members⟩ : Bundle).offered = unit.bundle.offered :=
      hedits.filter_isOffered
    rw [interface_eq_ofList, interface_eq_ofList, hoffered]
    rfl

/-- An operation that is declared twice, with hidden members of its name in between. -/
def doorman : Instance :=
  let greets (visibility : Visibility) (isStatic : Bool) (text : String) : Member :=
    ⟨"greet", visibility, isStatic, .operation {} fun _ _ _ => .done (.ok (.string text))⟩
  ⟨.given 0, ⟨"Doorman", [
    greets .publicAccess false "hello",
    ⟨"leave", .publicAccess, false, .operation {} fun _ _ _ => .done (.ok .null)⟩,
    greets .publicAccess false "good evening",
    greets .privateAccess false "psst",
    greets .publicAccess true "all",
    ⟨"greet", .publicAccess, false, .property .string⟩]⟩⟩

/-- A private member in the first place takes neither the place nor the body of the operation that has
its name. -/
theorem interface_public_doorman :
    let secret : Member :=
      ⟨"leave", .privateAccess, false, .operation {} fun _ _ _ => .done (.ok (.bool true))⟩
    Member.HiddenEdits doorman.bundle.members ([] ++ secret :: doorman.bundle.members) ∧
      (⟨.given 0, ⟨"Doorman", [] ++ secret :: doorman.bundle.members⟩⟩ : Instance).interface
        = doorman.interface ∧
      doorman.interface.keys = ["greet", "leave"] := by
  intro secret
  have hedits : Member.HiddenEdits doorman.bundle.members ([] ++ secret :: doorman.bundle.members) :=
    .insert (.refl doorman.bundle.members) (.inl rfl)
  exact ⟨hedits, (interface_public doorman).2.2.2 _ hedits, rfl⟩

end Instance

end Graft
