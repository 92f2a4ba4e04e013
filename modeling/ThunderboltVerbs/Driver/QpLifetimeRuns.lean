import ThunderboltVerbs.Driver.QpLifetime

/-!
# Queue pairs outlive their uses

Every queue pair has an owner until it is freed, and a thread that uses one has a reference, the lock of the table
or the work that its owner waits for.
-/

namespace ThunderboltVerbs.Driver
open Config Lib

/-! ## The invariant -/

namespace QpTable

def holders (s : QpTable) : List Nat := s.calls.filterMap QpCall.ref?

def owners (s : QpTable) : List Nat := s.calls.filterMap QpCall.owner?

/-- The numbers that are in use: those of queue pairs that are still to come, those of the Apple queue pairs that are
there and those of all native queue pairs that ever were. -/
def taken (s : QpTable) : List Nat :=
  s.calls.filterMap QpCall.number? ++
    (s.published.filter fun pos => pos.backend = .native ∨ pos.qp ∈ s.owners).map PublishedQp.qpNum

def Listed (s : QpTable) (qp : Nat) : Prop := ∃ entry ∈ s.xa, entry.2 = qp

def Shut (s : QpTable) (qp : Nat) : Prop := ∀ object ∈ s.qps, object.key = qp → object.value.closing = true

/-- What a call may rely on at its stage. -/
def Fits (s : QpTable) : QpCall → Prop
  | .creating .. | .handle _ | .holding _ | .waking _ => True
  | .looking qp => s.Listed qp
  | .working qp => qp ∈ s.owners
  | .closing qp => s.Shut qp
  | .waiting qp | .alone qp => s.Shut qp ∧ .working qp ∉ s.calls
  | .erased qp => s.Shut qp ∧ .working qp ∉ s.calls ∧ ¬s.Listed qp
  | .draining qp qpNum backend =>
      (s.Shut qp ∧ .working qp ∉ s.calls ∧ ¬s.Listed qp) ∧ { qp, qpNum, backend } ∈ s.published

/-- How the numbers are given out. -/
structure Numbered (s : QpTable) : Prop where
  owned : ∀ qp ∈ s.owners, ∃ pos ∈ s.published, pos.qp = qp
  fresh : ∀ pos ∈ s.published, pos.qp < s.next
  taken : s.taken.Nodup
  allocated : ∀ qpNum ∈ s.taken, qpNum ∈ s.ida
  reuse : s.published.Pairwise fun later sooner =>
    later.qpNum = sooner.qpNum → sooner.backend = .apple ∧ sooner.qp ∉ s.owners

structure Inv (s : QpTable) : Prop where
  balanced : Counted.Balanced s.qps s.holders
  single : s.owners.Nodup
  kept : ∀ object ∈ s.qps, object.key ∈ s.owners
  known : ∀ object ∈ s.qps, { qp := object.key, qpNum := object.value.qpNum, backend := object.value.backend } ∈
    s.published
  fits : ∀ call ∈ s.calls, s.Fits call
  table : ∀ entry ∈ s.xa, ∃ object ∈ s.qps, object.key = entry.2 ∧ object.value.qpNum = entry.1
  numbers : (s.xa.map Prod.fst).Nodup
  numbered : s.Numbered

variable {s s' : QpTable} {c : Nat} {call : QpCall}

theorem find_some {qp : Nat} {object : Counted Nat LiveQp} (found : s.find qp = some object) :
    object ∈ s.qps ∧ object.key = qp :=
  ⟨List.mem_of_find?_eq_some found, by simpa using List.find?_some found⟩

theorem find_none {qp : Nat} (missing : s.find qp = none) : ∀ object ∈ s.qps, object.key ≠ qp := by
  simpa [find] using missing

/-- The order of the calls does not matter. -/
theorem Inv.pick (inv : s.Inv) (found : s.calls[c]? = some call) :
    ({ s with calls := call :: s.calls.eraseIdx c } : QpTable).Inv := by
  obtain ⟨bound, rfl⟩ := List.getElem?_eq_some_iff.mp found
  have perm := (List.getElem_cons_eraseIdx_perm bound).symm
  have owners := perm.filterMap QpCall.owner?
  have mem (call : QpCall) : call ∈ s.calls[c] :: s.calls.eraseIdx c ↔ call ∈ s.calls := perm.mem_iff.symm
  have owns (qp : Nat) : qp ∈ (s.calls[c] :: s.calls.eraseIdx c).filterMap QpCall.owner? ↔ qp ∈ s.owners :=
    owners.mem_iff.symm
  have taken : s.taken.Perm ({ s with calls := s.calls[c] :: s.calls.eraseIdx c } : QpTable).taken := by
    apply List.Perm.append (perm.filterMap _)
    simp only [QpTable.owners, owners.mem_iff]
    exact List.Perm.refl _
  refine ⟨inv.balanced.perm (perm.filterMap _), owners.nodup_iff.mp inv.single, ?_, inv.known, ?_, inv.table,
    inv.numbers, ?_⟩
  · intro object member
    exact (owns _).mpr (inv.kept object member)
  · intro call member
    have fits := inv.fits call ((mem call).mp member)
    cases call with
    | working qp => exact (owns qp).mpr fits
    | waiting qp | alone qp => exact ⟨fits.1, fun working => fits.2 ((mem _).mp working)⟩
    | erased qp => exact ⟨fits.1, fun working => fits.2.1 ((mem _).mp working), fits.2.2⟩
    | draining qp qpNum backend =>
        exact ⟨⟨fits.1.1, fun working => fits.1.2.1 ((mem _).mp working), fits.1.2.2⟩, fits.2⟩
    | _ => exact fits
  · have numbered := inv.numbered
    refine ⟨?_, numbered.fresh, taken.nodup_iff.mp numbered.taken, ?_, ?_⟩
    · intro qp member
      exact numbered.owned qp ((owns qp).mp member)
    · intro qpNum member
      exact numbered.allocated qpNum (taken.mem_iff.mpr member)
    · refine numbered.reuse.imp ?_
      intro later sooner apart same
      exact ⟨(apart same).1, fun owned => (apart same).2 ((owns _).mp owned)⟩

/-! ## What a step keeps -/

/-- What the calls of `s` rely on is still so in `s'`. -/
structure Keeps (s s' : QpTable) : Prop where
  shut : ∀ qp ∈ s.owners, s.Shut qp → s'.Shut qp
  idle : ∀ qp ∈ s.owners, s.Shut qp → .working qp ∉ s.calls → .working qp ∉ s'.calls
  unlisted : ∀ qp ∈ s.owners, ¬s.Listed qp → ¬s'.Listed qp
  listed : ∀ qp, .looking qp ∈ s.calls → s.Listed qp → s'.Listed qp
  worked : ∀ qp, .working qp ∈ s.calls → qp ∈ s.owners → qp ∈ s'.owners
  published : ∀ pos ∈ s.published, pos ∈ s'.published

theorem mem_owners {qp : Nat} (member : call ∈ s.calls) (owner : call.owner? = some qp) : qp ∈ s.owners :=
  List.mem_filterMap.mpr ⟨call, member, owner⟩

theorem Keeps.fits (keeps : s.Keeps s') (member : call ∈ s.calls) (fits : s.Fits call) : s'.Fits call := by
  have owner (qp : Nat) (owns : call.owner? = some qp) : qp ∈ s.owners := mem_owners member owns
  cases call with
  | creating | handle | holding | waking => trivial
  | looking qp => exact keeps.listed qp member fits
  | working qp => exact keeps.worked qp member fits
  | closing qp => exact keeps.shut qp (owner qp rfl) fits
  | waiting qp | alone qp =>
      exact ⟨keeps.shut qp (owner qp rfl) fits.1, keeps.idle qp (owner qp rfl) fits.1 fits.2⟩
  | erased qp =>
      exact ⟨keeps.shut qp (owner qp rfl) fits.1, keeps.idle qp (owner qp rfl) fits.1 fits.2.1,
        keeps.unlisted qp (owner qp rfl) fits.2.2⟩
  | draining qp qpNum backend =>
      obtain ⟨⟨shut, idle, unlisted⟩, published⟩ := fits
      exact ⟨⟨keeps.shut qp (owner qp rfl) shut, keeps.idle qp (owner qp rfl) shut idle,
        keeps.unlisted qp (owner qp rfl) unlisted⟩, keeps.published _ published⟩

/-- The objects are those of before with their numbers, and none is open again. -/
def Derived (before after : List (Counted Nat LiveQp)) : Prop :=
  ∀ new ∈ after, ∃ old ∈ before, new.key = old.key ∧ new.value.qpNum = old.value.qpNum ∧
    new.value.backend = old.value.backend ∧ (old.value.closing = true → new.value.closing = true)

section Objects

variable {before after : List (Counted Nat LiveQp)}

theorem Derived.of_values (same : ∀ new ∈ after, ∃ old ∈ before, new.key = old.key ∧ new.value = old.value) :
    Derived before after := by
  intro new member
  obtain ⟨old, there, key, value⟩ := same new member
  exact ⟨old, there, key, congrArg LiveQp.qpNum value, congrArg LiveQp.backend value, fun closed => value ▸ closed⟩

theorem derived_close (before : List (Counted Nat LiveQp)) (qp : Nat) :
    Derived before (Counted.modify qp (fun value => { value with closing := true }) before) := by
  intro new member
  obtain ⟨old, there, key, ⟨-, value⟩ | ⟨-, value⟩⟩ := Counted.mem_modify member
  · exact ⟨old, there, key, by rw [value], by rw [value], fun _ => by rw [value]⟩
  · exact ⟨old, there, key, by rw [value], by rw [value], fun closed => by rw [value]; exact closed⟩

theorem Derived.shut (derived : Derived before after) {qp : Nat}
    (shut : ∀ object ∈ before, object.key = qp → object.value.closing = true) :
    ∀ object ∈ after, object.key = qp → object.value.closing = true := by
  rintro new member rfl
  obtain ⟨old, there, key, -, -, closed⟩ := derived new member
  exact closed (shut old there key.symm)

theorem Derived.kept (derived : Derived before after) {owners : List Nat}
    (kept : ∀ object ∈ before, object.key ∈ owners) : ∀ object ∈ after, object.key ∈ owners := by
  intro new member
  obtain ⟨old, there, key, -⟩ := derived new member
  rw [key]
  exact kept old there

theorem Derived.known (derived : Derived before after) {published : List PublishedQp}
    (known : ∀ object ∈ before,
      { qp := object.key, qpNum := object.value.qpNum, backend := object.value.backend } ∈ published) :
    ∀ object ∈ after,
      { qp := object.key, qpNum := object.value.qpNum, backend := object.value.backend } ∈ published := by
  intro new member
  obtain ⟨old, there, key, number, backend, -⟩ := derived new member
  rw [key, number, backend]
  exact known old there

/-- The object with a key has the number that it had. -/
theorem Derived.number (derived : Derived before after) (distinct : (before.map Counted.key).Nodup)
    {object : Counted Nat LiveQp} (present : object ∈ before) (still : object.key ∈ after.map Counted.key) :
    ∃ new ∈ after, new.key = object.key ∧ new.value.qpNum = object.value.qpNum := by
  obtain ⟨new, place, name⟩ := List.mem_map.mp still
  obtain ⟨old, there, key, number, -⟩ := derived new place
  obtain rfl := List.inj_on_of_nodup_map distinct there present (key.symm.trans name)
  exact ⟨new, place, name, number⟩

theorem Derived.table (derived : Derived before after) (distinct : (before.map Counted.key).Nodup)
    (keys : after.map Counted.key = before.map Counted.key) {xa : List (Nat × Nat)}
    (table : ∀ entry ∈ xa, ∃ object ∈ before, object.key = entry.2 ∧ object.value.qpNum = entry.1) :
    ∀ entry ∈ xa, ∃ object ∈ after, object.key = entry.2 ∧ object.value.qpNum = entry.1 := by
  intro entry member
  obtain ⟨old, there, key, number⟩ := table entry member
  obtain ⟨new, place, same, number'⟩ := derived.number distinct there (keys ▸ List.mem_map_of_mem there)
  exact ⟨new, place, same.trans key, number'.trans number⟩

/-- The table and the queue pairs stay, and no call loses what it relies on. -/
theorem Keeps.of_calls {calls calls' : List QpCall} {ida : List Nat} (derived : Derived s.qps after)
    (idle : ∀ qp, s.Shut qp → .working qp ∉ calls → .working qp ∉ calls')
    (worked : ∀ qp, .working qp ∈ calls → qp ∈ calls.filterMap QpCall.owner? → qp ∈ calls'.filterMap QpCall.owner?) :
    ({ s with calls } : QpTable).Keeps { s with ida, qps := after, calls := calls' } where
  shut _ _ shut := derived.shut shut
  idle qp _ shut still := idle qp shut still
  unlisted _ _ unlisted := unlisted
  listed _ _ listed := listed
  worked qp working owned := worked qp working owned
  published _ member := member

end Objects

section Moves

variable {rest news : List QpCall}

/-- A call goes on with the queue pair that it owns and the number that it has. -/
structure Goes (call : QpCall) (news : List QpCall) : Prop where
  owner : news.filterMap QpCall.owner? = call.owner?.toList
  number : news.filterMap QpCall.number? = call.number?.toList

theorem filterMap_cons_toList {α β : Type} (f : α → Option β) (a : α) (as : List α) :
    (a :: as).filterMap f = (f a).toList ++ as.filterMap f := by
  cases image : f a with
  | none => rw [List.filterMap_cons_none image, Option.toList_none, List.nil_append]
  | some b => rw [List.filterMap_cons_some image, Option.toList_some, List.singleton_append]

theorem Goes.owners (goes : Goes call news) :
    (news ++ rest).filterMap QpCall.owner? = (call :: rest).filterMap QpCall.owner? := by
  rw [List.filterMap_append, goes.owner, filterMap_cons_toList]

theorem Numbered.goOn (numbered : ({ s with calls := call :: rest } : QpTable).Numbered) (goes : Goes call news)
    (qps : List (Counted Nat LiveQp)) (xa : List (Nat × Nat)) :
    ({ s with qps, xa, calls := news ++ rest } : QpTable).Numbered := by
  have owners : ({ s with qps, xa, calls := news ++ rest } : QpTable).owners =
      ({ s with calls := call :: rest } : QpTable).owners := goes.owners
  have taken : ({ s with qps, xa, calls := news ++ rest } : QpTable).taken =
      ({ s with calls := call :: rest } : QpTable).taken := by
    unfold QpTable.taken
    rw [owners, List.filterMap_append, goes.number, filterMap_cons_toList]
  refine ⟨?_, numbered.fresh, taken ▸ numbered.taken, ?_, ?_⟩
  · rw [owners]
    exact numbered.owned
  · rw [taken]
    exact numbered.allocated
  · rw [owners]
    exact numbered.reuse

/-- Only the stage of a call changes. -/
theorem Inv.move (inv : ({ s with calls := call :: rest } : QpTable).Inv) (goes : Goes call news)
    (ref : news.filterMap QpCall.ref? = call.ref?.toList) (idle : ∀ qp, .working qp ∉ news)
    (fits : ∀ new ∈ news, ({ s with calls := news ++ rest } : QpTable).Fits new) :
    ({ s with calls := news ++ rest } : QpTable).Inv := by
  have owners : ({ s with calls := news ++ rest } : QpTable).owners =
      ({ s with calls := call :: rest } : QpTable).owners := goes.owners
  have keeps : ({ s with calls := call :: rest } : QpTable).Keeps { s with calls := news ++ rest } := by
    apply Keeps.of_calls (.of_values fun object member => ⟨object, member, rfl, rfl⟩)
    · intro qp _ still working
      exact (List.mem_append.mp working).elim (idle qp) fun behind => still (List.mem_cons_of_mem _ behind)
    · intro qp _ owned
      exact goes.owners ▸ owned
  refine ⟨?_, owners ▸ inv.single, ?_, inv.known, ?_, inv.table, inv.numbers, inv.numbered.goOn goes s.qps s.xa⟩
  · have holders : ({ s with calls := news ++ rest } : QpTable).holders =
        ({ s with calls := call :: rest } : QpTable).holders := by
      unfold QpTable.holders
      rw [List.filterMap_append, ref, filterMap_cons_toList]
    exact holders ▸ inv.balanced
  · rw [owners]
    exact inv.kept
  · intro other member
    rcases List.mem_append.mp member with new | old
    · exact fits other new
    · exact keeps.fits (List.mem_cons_of_mem _ old) (inv.fits other (List.mem_cons_of_mem _ old))

/-- Who is in the table is held by its owner. -/
theorem Inv.owner_of_listed (inv : ({ s with calls := call :: rest } : QpTable).Inv) {qp : Nat}
    (listed : s.Listed qp) (other : call.owner? = none) : qp ∈ rest.filterMap QpCall.ref? := by
  obtain ⟨entry, member, rfl⟩ := id listed
  obtain ⟨object, present, key, -⟩ := inv.table entry member
  obtain ⟨owner, place, owns⟩ := List.mem_filterMap.mp (inv.kept object present)
  rw [key] at owns
  have behind : owner ∈ rest := by
    rcases List.mem_cons.mp place with rfl | behind
    · rw [other] at owns
      cases owns
    · exact behind
  refine List.mem_filterMap.mpr ⟨owner, behind, ?_⟩
  have fits := inv.fits owner place
  cases owner with
  | creating | looking | holding | waking | working => cases owns
  | draining qp qpNum backend =>
      cases owns
      exact absurd listed fits.1.2.2
  | _ => exact owns

/-- A thread puts its reference. A queue pair that is in the table has another one. -/
theorem Inv.release (inv : ({ s with calls := call :: rest } : QpTable).Inv) {qp : Nat} (ref : call.ref? = some qp)
    (goes : Goes call news) (last : news.filterMap QpCall.ref? = []) (idle : ∀ qp, .working qp ∉ news)
    (held : s.Listed qp → qp ∈ rest.filterMap QpCall.ref?)
    (fits : ∀ new ∈ news, ({ s with qps := Counted.release qp s.qps, calls := news ++ rest } : QpTable).Fits new) :
    ({ s with qps := Counted.release qp s.qps, calls := news ++ rest } : QpTable).Inv := by
  have owners : ({ s with qps := Counted.release qp s.qps, calls := news ++ rest } : QpTable).owners =
      ({ s with calls := call :: rest } : QpTable).owners := goes.owners
  have before : Counted.Balanced s.qps (qp :: rest.filterMap QpCall.ref?) := by
    have balanced := inv.balanced
    unfold QpTable.holders at balanced
    rwa [List.filterMap_cons_some ref] at balanced
  have after := before.release
  have derived : Derived s.qps (Counted.release qp s.qps) := .of_values fun _ member => Counted.mem_release member
  have keeps : ({ s with calls := call :: rest } : QpTable).Keeps
      { s with qps := Counted.release qp s.qps, calls := news ++ rest } := by
    apply Keeps.of_calls derived
    · intro other _ still working
      exact (List.mem_append.mp working).elim (idle other) fun behind => still (List.mem_cons_of_mem _ behind)
    · intro other _ owned
      exact goes.owners ▸ owned
  refine ⟨?_, owners ▸ inv.single, ?_, derived.known inv.known, ?_, ?_, inv.numbers, inv.numbered.goOn goes _ s.xa⟩
  · have holders : ({ s with qps := Counted.release qp s.qps, calls := news ++ rest } : QpTable).holders =
        rest.filterMap QpCall.ref? := by
      unfold QpTable.holders
      rw [List.filterMap_append, last, List.nil_append]
    exact holders ▸ after
  · rw [owners]
    exact derived.kept inv.kept
  · intro other member
    rcases List.mem_append.mp member with new | old
    · exact fits other new
    · exact keeps.fits (List.mem_cons_of_mem _ old) (inv.fits other (List.mem_cons_of_mem _ old))
  · intro entry member
    obtain ⟨object, present, key, number⟩ := inv.table entry member
    have holder : entry.2 ∈ rest.filterMap QpCall.ref? := by
      by_cases here : entry.2 = qp
      · exact here ▸ held ⟨entry, member, here⟩
      · have positive := before.held object present
        rw [before.counted object present, key, List.count_cons_of_ne (Ne.symm here)] at positive
        exact List.count_pos_iff.mp positive
    obtain ⟨other, there, name⟩ := after.live entry.2 holder
    have still : object.key ∈ (Counted.release qp s.qps).map Counted.key :=
      List.mem_map.mpr ⟨other, there, name.trans key.symm⟩
    obtain ⟨new, place, same, number'⟩ := derived.number before.distinct present still
    exact ⟨new, place, same.trans key, number'.trans number⟩

end Moves

/-! ## References -/

section References

variable {rest : List QpCall} {object : Counted Nat LiveQp}

/-- A thread gets a reference to a queue pair that is there. -/
theorem Inv.retain (inv : ({ s with calls := rest } : QpTable).Inv) (present : object ∈ s.qps) :
    ({ s with qps := Counted.retain object.key s.qps, calls := .holding object.key :: rest } : QpTable).Inv := by
  have derived : Derived s.qps (Counted.retain object.key s.qps) := .of_values fun _ member => Counted.mem_retain member
  have keeps : ({ s with calls := rest } : QpTable).Keeps
      { s with qps := Counted.retain object.key s.qps, calls := .holding object.key :: rest } := by
    apply Keeps.of_calls derived
    · intro other _ still working
      exact still ((List.mem_cons.mp working).resolve_left QpCall.noConfusion)
    · exact fun _ _ owned => owned
  have table := derived.table inv.balanced.distinct (Counted.keys_retain object.key s.qps) inv.table
  refine ⟨inv.balanced.retain present, inv.single, derived.kept inv.kept, derived.known inv.known, ?_, table,
    inv.numbers, ?_⟩
  · intro other member
    rcases List.mem_cons.mp member with rfl | old
    · trivial
    · exact keeps.fits old (inv.fits other old)
  · have numbered := inv.numbered
    exact ⟨numbered.owned, numbered.fresh, numbered.taken, numbered.allocated, numbered.reuse⟩

/-- A call ends that has no reference. -/
theorem Inv.leave (inv : ({ s with calls := call :: rest } : QpTable).Inv) (owner : call.owner? = none)
    (ref : call.ref? = none) : ({ s with calls := rest } : QpTable).Inv := by
  have numbered := inv.numbered
  have owners : ({ s with calls := call :: rest } : QpTable).owners = ({ s with calls := rest } : QpTable).owners :=
    List.filterMap_cons_none owner
  have holders : ({ s with calls := call :: rest } : QpTable).holders = ({ s with calls := rest } : QpTable).holders :=
    List.filterMap_cons_none ref
  have taken : ({ s with calls := rest } : QpTable).taken.Sublist
      ({ s with calls := call :: rest } : QpTable).taken := by
    unfold QpTable.taken
    rw [owners]
    exact ((List.sublist_cons_self call rest).filterMap QpCall.number?).append (List.Sublist.refl _)
  have keeps : ({ s with calls := call :: rest } : QpTable).Keeps { s with calls := rest } := by
    apply Keeps.of_calls (.of_values fun object member => ⟨object, member, rfl, rfl⟩)
    · intro other _ still working
      exact still (List.mem_cons_of_mem _ working)
    · intro other _ owned
      exact List.filterMap_cons_none owner ▸ owned
  refine ⟨holders ▸ inv.balanced, owners ▸ inv.single, owners ▸ inv.kept, inv.known, ?_, inv.table, inv.numbers,
    owners ▸ numbered.owned, numbered.fresh, taken.nodup numbered.taken, ?_, owners ▸ numbered.reuse⟩
  · intro other member
    exact keeps.fits (List.mem_cons_of_mem _ member) (inv.fits other (List.mem_cons_of_mem _ member))
  · intro other member
    exact numbered.allocated other (taken.subset member)

/-- A call begins without a reference. -/
theorem Inv.begin (inv : s.Inv) {ida : List Nat} (owner : call.owner? = none) (ref : call.ref? = none)
    (idle : ∀ qp, call = .working qp → ¬s.Shut qp)
    (fits : ({ s with ida, calls := call :: s.calls } : QpTable).Fits call)
    (numbered : ({ s with ida, calls := call :: s.calls } : QpTable).Numbered) :
    ({ s with ida, calls := call :: s.calls } : QpTable).Inv := by
  have owners : ({ s with ida, calls := call :: s.calls } : QpTable).owners = s.owners := List.filterMap_cons_none owner
  have holders : ({ s with ida, calls := call :: s.calls } : QpTable).holders = s.holders :=
    List.filterMap_cons_none ref
  have keeps : s.Keeps { s with ida, calls := call :: s.calls } := by
    apply Keeps.of_calls (.of_values fun object member => ⟨object, member, rfl, rfl⟩)
    · intro qp shut still working
      rcases List.mem_cons.mp working with here | behind
      · exact idle qp here.symm shut
      · exact still behind
    · intro qp _ owned
      rw [List.filterMap_cons_none owner]
      exact owned
  refine ⟨?_, owners ▸ inv.single, ?_, inv.known, ?_, inv.table, inv.numbers, numbered⟩
  · rw [holders]
    exact inv.balanced
  · rw [owners]
    exact inv.kept
  · intro other member
    rcases List.mem_cons.mp member with rfl | old
    · exact fits
    · exact keeps.fits old (inv.fits other old)

/-- A queue pair that is open has an owner that has not begun to destroy it, so its work may be queued. -/
theorem Inv.schedule (inv : s.Inv) (present : object ∈ s.qps) (isOpen : object.value.closing = false) :
    ({ s with calls := .working object.key :: s.calls } : QpTable).Inv := by
  have numbered := inv.numbered
  apply inv.begin rfl rfl
  · rintro qp ⟨⟩ shut
    rw [shut object present rfl] at isOpen
    cases isOpen
  · exact inv.kept object present
  · exact ⟨numbered.owned, numbered.fresh, numbered.taken, numbered.allocated, numbered.reuse⟩

theorem Inv.look (inv : s.Inv) {qp : Nat} (listed : s.Listed qp) :
    ({ s with calls := .looking qp :: s.calls } : QpTable).Inv := by
  have numbered := inv.numbered
  apply inv.begin rfl rfl
  · rintro other ⟨⟩
  · exact listed
  · exact ⟨numbered.owned, numbered.fresh, numbered.taken, numbered.allocated, numbered.reuse⟩

/-! ## Destroying -/

/-- From now on nobody gets a reference, but for a thread that has seen the queue pair open. -/
theorem Inv.close (inv : ({ s with calls := call :: rest } : QpTable).Inv) {qp : Nat} (here : call = .handle qp) :
    ({ s with
      qps := Counted.modify qp (fun value => { value with closing := true }) s.qps
      calls := .closing qp :: rest } : QpTable).Inv := by
  subst here
  have derived := derived_close s.qps qp
  have keeps : ({ s with calls := .handle qp :: rest } : QpTable).Keeps
      { s with
        qps := Counted.modify qp (fun value => { value with closing := true }) s.qps
        calls := .closing qp :: rest } := by
    apply Keeps.of_calls derived
    · intro other _ still working
      exact still (List.mem_cons_of_mem _ ((List.mem_cons.mp working).resolve_left QpCall.noConfusion))
    · exact fun _ _ owned => owned
  have goes : Goes (.handle qp) [.closing qp] := ⟨rfl, rfl⟩
  have balanced := inv.balanced.modify qp fun value => { value with closing := true }
  have table := derived.table inv.balanced.distinct (Counted.keys_modify _ _ _) inv.table
  refine ⟨balanced, inv.single, derived.kept inv.kept, derived.known inv.known, ?_, table, inv.numbers,
    inv.numbered.goOn goes _ s.xa⟩
  intro other member
  rcases List.mem_cons.mp member with rfl | old
  · intro new inside name
    have place : new ∈ Counted.modify qp (fun value => { value with closing := true }) s.qps := inside
    obtain ⟨old, -, key, ⟨-, value⟩ | ⟨elsewhere, -⟩⟩ := Counted.mem_modify place
    · rw [value]
    · exact absurd (key.symm.trans name) elsewhere
  · exact keeps.fits (List.mem_cons_of_mem _ old) (inv.fits other (List.mem_cons_of_mem _ old))

/-- The number of the queue pair leaves the table, and no other one has it. -/
theorem Inv.erase (inv : ({ s with calls := call :: rest } : QpTable).Inv) (here : call = .alone object.key)
    (present : object ∈ s.qps) (free : s.xaFree = true) (fewer : ∀ other ∈ rest, other ∈ s.calls) :
    ({ s with
      xa := s.xa.filter fun entry => entry.1 ≠ object.value.qpNum
      calls := .erased object.key :: rest } : QpTable).Inv := by
  subst here
  have unlisted (qp : Nat) (still : ¬s.Listed qp) :
      ¬({ s with
        xa := s.xa.filter fun entry => entry.1 ≠ object.value.qpNum
        calls := .erased object.key :: rest } : QpTable).Listed qp := by
    rintro ⟨entry, member, rfl⟩
    exact still ⟨entry, (List.mem_filter.mp member).1, rfl⟩
  have keeps : ({ s with calls := .alone object.key :: rest } : QpTable).Keeps
      { s with
        xa := s.xa.filter fun entry => entry.1 ≠ object.value.qpNum
        calls := .erased object.key :: rest } := by
    refine ⟨fun _ _ shut => shut, ?_, fun qp _ => unlisted qp, ?_, fun _ _ owned => owned, fun _ member => member⟩
    · intro other _ _ still working
      exact still (List.mem_cons_of_mem _ ((List.mem_cons.mp working).resolve_left QpCall.noConfusion))
    · intro qp looking
      have before := fewer _ ((List.mem_cons.mp looking).resolve_left QpCall.noConfusion)
      simp only [xaFree, Bool.not_eq_true', List.any_eq_false] at free
      exact absurd rfl (free _ before)
  obtain ⟨shut, still⟩ := inv.fits _ List.mem_cons_self
  have goes : Goes (.alone object.key) [.erased object.key] := ⟨rfl, rfl⟩
  refine ⟨inv.balanced, inv.single, inv.kept, inv.known, ?_, ?_, ?_, inv.numbered.goOn goes s.qps _⟩
  · intro other member
    rcases List.mem_cons.mp member with rfl | old
    · refine ⟨shut, keeps.idle _ List.mem_cons_self shut still, ?_⟩
      rintro ⟨entry, member, same⟩
      obtain ⟨inside, number⟩ := List.mem_filter.mp member
      obtain ⟨object', there, key, number'⟩ := inv.table entry inside
      obtain rfl := inv.balanced.eq_of_key there present (key.trans same)
      exact of_decide_eq_true number number'.symm
    · exact keeps.fits (List.mem_cons_of_mem _ old) (inv.fits other (List.mem_cons_of_mem _ old))
  · intro entry member
    exact inv.table entry (List.mem_filter.mp member).1
  · exact (List.filter_sublist.map Prod.fst).nodup inv.numbers

end References

/-! ## Numbers -/

theorem idaAlloc_fresh {ida : List Nat} {first count qpNum : Nat} (given : idaAlloc ida first count = some qpNum) :
    qpNum ∉ ida := by
  induction count generalizing first with
  | zero => cases given
  | succ count ih =>
      rw [idaAlloc] at given
      split at given
      · exact ih given
      · rename_i absent
        cases given
        exact absent

theorem allocQpn_fresh {backend : BackendType} {qpNum : Nat} (given : s.allocQpn backend = some qpNum) :
    qpNum ∉ s.ida := by
  cases backend with
  | native => exact idaAlloc_fresh given
  | apple => exact idaAlloc_fresh given

theorem Inv.alloc (inv : s.Inv) {qpNum : Nat} (fresh : qpNum ∉ s.ida) (backend : BackendType) :
    ({ s with ida := qpNum :: s.ida, calls := .creating qpNum backend :: s.calls } : QpTable).Inv := by
  have numbered := inv.numbered
  apply inv.begin rfl rfl
  · rintro other ⟨⟩
  · trivial
  refine ⟨numbered.owned, numbered.fresh, ?_, ?_, numbered.reuse⟩
  · exact List.nodup_cons.mpr ⟨fun old => fresh (numbered.allocated qpNum old), numbered.taken⟩
  · intro other member
    rcases List.mem_cons.mp member with rfl | old
    · exact List.mem_cons_self
    · exact List.mem_cons_of_mem _ (numbered.allocated other old)

section Numbers

variable {rest : List QpCall}

/-- A number that nobody uses any more is given back. -/
theorem Numbered.give (numbered : s.Numbered) {qpNum : Nat} (unused : qpNum ∉ s.taken) :
    ({ s with ida := s.ida.erase qpNum } : QpTable).Numbered where
  owned := numbered.owned
  fresh := numbered.fresh
  taken := numbered.taken
  allocated other member := by
    have apart : other ≠ qpNum := fun same => unused (same ▸ member)
    exact (List.mem_erase_of_ne apart).mpr (numbered.allocated other member)
  reuse := numbered.reuse

theorem Inv.give (inv : s.Inv) {qpNum : Nat} (unused : qpNum ∉ s.taken) :
    ({ s with ida := s.ida.erase qpNum } : QpTable).Inv where
  balanced := inv.balanced
  single := inv.single
  kept := inv.kept
  known := inv.known
  fits call member := by
    have fits := inv.fits call member
    cases call with
    | _ => exact fits
  table := inv.table
  numbers := inv.numbers
  numbered := inv.numbered.give unused

theorem taken_cons {qpNum : Nat} (number : call.number? = some qpNum) (owner : call.owner? = none) :
    ({ s with calls := call :: rest } : QpTable).taken = qpNum :: ({ s with calls := rest } : QpTable).taken := by
  unfold QpTable.taken QpTable.owners
  rw [List.filterMap_cons_some number, List.filterMap_cons_none owner, List.cons_append]

/-- A creation fails, and its number is there for another one. -/
theorem Inv.fail (inv : ({ s with calls := call :: rest } : QpTable).Inv) {qpNum : Nat}
    (number : call.number? = some qpNum) (owner : call.owner? = none) (ref : call.ref? = none) :
    ({ s with ida := s.ida.erase qpNum, calls := rest } : QpTable).Inv := by
  have distinct := inv.numbered.taken
  rw [taken_cons number owner, List.nodup_cons] at distinct
  exact (inv.leave owner ref).give distinct.1

theorem Numbered.ne_next (numbered : s.Numbered) {pos : PublishedQp} (member : pos ∈ s.published) : pos.qp ≠ s.next :=
  Nat.ne_of_lt (numbered.fresh pos member)

theorem Numbered.next_unowned (numbered : s.Numbered) : s.next ∉ s.owners := by
  intro owned
  obtain ⟨pos, member, same⟩ := numbered.owned _ owned
  exact numbered.ne_next member same

/-- The number of the creation is now the number of the queue pair. -/
theorem Numbered.publish {qpNum : Nat} {backend : BackendType}
    (numbered : ({ s with calls := .creating qpNum backend :: rest } : QpTable).Numbered)
    (xa : List (Nat × Nat)) (qps : List (Counted Nat LiveQp)) :
    ({ s with
      xa
      qps
      next := s.next + 1
      published := { qp := s.next, qpNum, backend } :: s.published
      calls := .handle s.next :: rest } : QpTable).Numbered := by
  have later : ∀ pos ∈ s.published, pos.qp ≠ s.next := fun pos member => numbered.ne_next member
  have distinct := numbered.taken
  rw [taken_cons (by rfl) (by rfl), List.nodup_cons] at distinct
  have filtered :
      (s.published.filter fun pos => pos.backend = .native ∨ pos.qp ∈ s.next :: rest.filterMap QpCall.owner?) =
      s.published.filter fun pos => pos.backend = .native ∨ pos.qp ∈ rest.filterMap QpCall.owner? := by
    apply List.filter_congr
    intro pos member
    simp only [List.mem_cons, later pos member, false_or]
  have taken : ({ s with
      xa
      qps
      next := s.next + 1
      published := { qp := s.next, qpNum, backend } :: s.published
      calls := .handle s.next :: rest } : QpTable).taken.Perm
        (qpNum :: ({ s with calls := rest } : QpTable).taken) := by
    unfold QpTable.taken QpTable.owners
    simp only [List.filterMap_cons, QpCall.number?, QpCall.owner?, List.filter_cons, List.mem_cons, true_or, or_true,
      decide_true, if_true, List.map_cons]
    simp only [List.mem_cons] at filtered
    rw [filtered]
    exact List.perm_middle
  refine ⟨?_, ?_, taken.nodup_iff.mpr (List.nodup_cons.mpr distinct), ?_, ?_⟩
  · intro qp owned
    rcases List.mem_cons.mp owned with rfl | old
    · exact ⟨_, List.mem_cons_self, rfl⟩
    · obtain ⟨pos, member, same⟩ := numbered.owned qp old
      exact ⟨pos, List.mem_cons_of_mem _ member, same⟩
  · intro pos member
    rcases List.mem_cons.mp member with rfl | old
    · exact Nat.lt_succ_self _
    · exact Nat.lt_succ_of_lt (numbered.fresh pos old)
  · intro other member
    apply numbered.allocated other
    rw [taken_cons (by rfl) (by rfl)]
    exact taken.mem_iff.mp member
  · refine List.pairwise_cons.mpr ⟨?_, ?_⟩
    · intro sooner member same
      have out : ¬(sooner.backend = .native ∨ sooner.qp ∈ rest.filterMap QpCall.owner?) := by
        intro counted
        have inside : sooner ∈ s.published.filter fun pos =>
            pos.backend = .native ∨ pos.qp ∈ rest.filterMap QpCall.owner? :=
          List.mem_filter.mpr ⟨member, decide_eq_true counted⟩
        exact distinct.1 (List.mem_append_right _ (List.mem_map.mpr ⟨sooner, inside, same.symm⟩))
      rw [not_or] at out
      refine ⟨?_, ?_⟩
      · cases kind : sooner.backend with
        | native => exact absurd kind out.1
        | apple => rfl
      · exact fun owned => (List.mem_cons.mp owned).elim (later sooner member) out.2
    · refine numbered.reuse.imp_of_mem ?_
      intro first second _ member apart same
      obtain ⟨apple, freed⟩ := apart same
      exact ⟨apple, fun owned => (List.mem_cons.mp owned).elim (later second member) freed⟩

/-- A new queue pair gets a name that no queue pair had, and a number that is not in the table. -/
theorem Inv.publish {qpNum : Nat} {backend : BackendType}
    (inv : ({ s with calls := .creating qpNum backend :: rest } : QpTable).Inv)
    (unlisted : qpNum ∉ s.xa.map Prod.fst) :
    ({ s with
      xa := (qpNum, s.next) :: s.xa
      qps := s.qps ++ [{ key := s.next, refs := 1, value := { qpNum, backend } }]
      next := s.next + 1
      published := { qp := s.next, qpNum, backend } :: s.published
      calls := .handle s.next :: rest } : QpTable).Inv := by
  have unowned : s.next ∉ rest.filterMap QpCall.owner? := inv.numbered.next_unowned
  have absent : ∀ object ∈ s.qps, object.key ≠ s.next := fun object member same =>
    unowned (same ▸ inv.kept object member)
  have keeps : ({ s with calls := .creating qpNum backend :: rest } : QpTable).Keeps
      { s with
        xa := (qpNum, s.next) :: s.xa
        qps := s.qps ++ [{ key := s.next, refs := 1, value := { qpNum, backend } }]
        next := s.next + 1
        published := { qp := s.next, qpNum, backend } :: s.published
        calls := .handle s.next :: rest } := by
    refine ⟨?_, ?_, ?_, ?_, fun _ _ owned => List.mem_cons_of_mem _ owned,
      fun _ member => List.mem_cons_of_mem _ member⟩
    · rintro other owned shut object member rfl
      rcases List.mem_append.mp member with old | new
      · exact shut object old rfl
      · obtain rfl := List.mem_singleton.mp new
        exact absurd owned unowned
    · intro other _ _ still working
      exact still (List.mem_cons_of_mem _ ((List.mem_cons.mp working).resolve_left QpCall.noConfusion))
    · rintro other owned still ⟨entry, member, rfl⟩
      rcases List.mem_cons.mp member with rfl | old
      · exact unowned owned
      · exact still ⟨entry, old, rfl⟩
    · rintro other - ⟨entry, member, same⟩
      exact ⟨entry, List.mem_cons_of_mem _ member, same⟩
  refine ⟨inv.balanced.insert absent _, List.nodup_cons.mpr ⟨unowned, inv.single⟩, ?_, ?_, ?_, ?_,
    List.nodup_cons.mpr ⟨unlisted, inv.numbers⟩, inv.numbered.publish _ _⟩
  · intro object member
    rcases List.mem_append.mp member with old | new
    · exact List.mem_cons_of_mem _ (inv.kept object old)
    · obtain rfl := List.mem_singleton.mp new
      exact List.mem_cons_self
  · intro object member
    rcases List.mem_append.mp member with old | new
    · exact List.mem_cons_of_mem _ (inv.known object old)
    · obtain rfl := List.mem_singleton.mp new
      exact List.mem_cons_self
  · intro other member
    rcases List.mem_cons.mp member with rfl | old
    · trivial
    · exact keeps.fits (List.mem_cons_of_mem _ old) (inv.fits other (List.mem_cons_of_mem _ old))
  · intro entry member
    rcases List.mem_cons.mp member with rfl | old
    · exact ⟨_, List.mem_append_right _ (List.mem_singleton_self _), rfl, rfl⟩
    · obtain ⟨object, there, key, number⟩ := inv.table entry old
      exact ⟨object, List.mem_append_left _ there, key, number⟩

section Free

variable {qp qpNum : Nat} {backend : BackendType}

theorem taken_free : ({ s with calls := rest } : QpTable).taken.Sublist
    ({ s with calls := .draining qp qpNum backend :: rest } : QpTable).taken := by
  apply List.Sublist.append (List.Sublist.refl _)
  apply List.Sublist.map
  apply List.monotone_filter_right
  intro pos counted
  exact decide_eq_true ((of_decide_eq_true counted).imp_right (List.mem_cons_of_mem _))

variable (inv : ({ s with calls := .draining qp qpNum backend :: rest } : QpTable).Inv)
include inv

/-- The queue pair is freed when nobody has a reference to it. -/
theorem Inv.free (absent : ∀ object ∈ s.qps, object.key ≠ qp) : ({ s with calls := rest } : QpTable).Inv := by
  have numbered := inv.numbered
  obtain ⟨⟨-, still, -⟩, -⟩ := inv.fits _ List.mem_cons_self
  have keeps : ({ s with calls := .draining qp qpNum backend :: rest } : QpTable).Keeps { s with calls := rest } := by
    apply Keeps.of_calls (.of_values fun object member => ⟨object, member, rfl, rfl⟩)
    · intro other _ idle working
      exact idle (List.mem_cons_of_mem _ working)
    · intro other working owned
      refine (List.mem_cons.mp owned).resolve_left ?_
      rintro rfl
      exact still working
  refine ⟨inv.balanced, (List.nodup_cons.mp inv.single).2, ?_, inv.known, ?_, inv.table, inv.numbers, ?_,
    numbered.fresh, taken_free.nodup numbered.taken, ?_, ?_⟩
  · intro object member
    exact (List.mem_cons.mp (inv.kept object member)).resolve_left (absent object member)
  · intro other member
    exact keeps.fits (List.mem_cons_of_mem _ member) (inv.fits other (List.mem_cons_of_mem _ member))
  · intro other owned
    exact numbered.owned other (List.mem_cons_of_mem _ owned)
  · intro other member
    exact numbered.allocated other (taken_free.subset member)
  · refine numbered.reuse.imp ?_
    intro later sooner apart same
    exact ⟨(apart same).1, fun owned => (apart same).2 (List.mem_cons_of_mem _ owned)⟩

/-- The number of an Apple queue pair that is freed is the number of no other one. -/
theorem Inv.unused (apple : backend = .apple) : qpNum ∉ ({ s with calls := rest } : QpTable).taken := by
  subst apple
  intro member
  obtain ⟨-, given⟩ := inv.fits _ List.mem_cons_self
  obtain ⟨unowned, -⟩ := List.nodup_cons.mp inv.single
  have distinct := inv.numbered.taken
  unfold QpTable.taken at distinct
  obtain ⟨-, published, disjoint⟩ := List.nodup_append'.mp distinct
  have counted : ({ qp, qpNum, backend := .apple } : PublishedQp) ∈ s.published.filter fun pos =>
      pos.backend = .native ∨ pos.qp ∈ qp :: rest.filterMap QpCall.owner? :=
    List.mem_filter.mpr ⟨given, decide_eq_true (.inr List.mem_cons_self)⟩
  rcases List.mem_append.mp member with waits | other
  · exact disjoint waits (List.mem_map.mpr ⟨_, counted, rfl⟩)
  · obtain ⟨pos, inside, same⟩ := List.mem_map.mp other
    obtain ⟨there, still⟩ := List.mem_filter.mp inside
    have owns := (of_decide_eq_true still).imp_right (List.mem_cons_of_mem qp)
    have both := List.inj_on_of_nodup_map published (List.mem_filter.mpr ⟨there, decide_eq_true owns⟩) counted same
    rw [both] at still
    exact (of_decide_eq_true still).elim BackendType.noConfusion unowned

end Free

end Numbers

/-! ## Runs -/

theorem Inv.start (appleEnabled : Bool) : ({ appleEnabled } : QpTable).Inv where
  balanced := Counted.Balanced.nil
  single := List.nodup_nil
  kept := by simp
  known := by simp
  fits := by simp
  table := by simp
  numbers := List.nodup_nil
  numbered := by
    refine ⟨?_, ?_, List.nodup_nil, ?_, List.Pairwise.nil⟩
    · simp [QpTable.owners]
    · simp
    · simp [QpTable.taken]

theorem Inv.step (inv : s.Inv) {action : QpTableAction} (stepped : s.step action = some s') : s'.Inv := by
  cases action with
  | alloc backend =>
      obtain rfl := Option.some.inj stepped
      split
      · exact inv
      · rename_i qpNum given
        exact inv.alloc (allocQpn_fresh given) backend
  | publish c ok =>
      simp only [QpTable.step] at stepped
      split at stepped
      · rename_i qpNum backend found
        obtain ⟨-, stepped⟩ := Option.ite_none_right_eq_some.mp stepped
        obtain rfl := Option.some.inj stepped
        have picked := inv.pick found
        unfold QpTable.publish
        split
        · rename_i granted
          have unlisted : qpNum ∉ s.xa.map Prod.fst := by
            rintro member
            obtain ⟨entry, inside, same⟩ := List.mem_map.mp member
            simp only [Bool.and_eq_true, Bool.not_eq_true', List.any_eq_false, decide_eq_true_eq] at granted
            exact granted.2 entry inside same
          exact picked.publish unlisted
        · exact picked.fail rfl rfl rfl
      · cases stepped
  | look qpNum =>
      obtain ⟨-, stepped⟩ := Option.ite_none_right_eq_some.mp stepped
      obtain rfl := Option.some.inj stepped
      split
      · rename_i object found
        split
        · exact inv
        · obtain ⟨entry, here, there⟩ := Option.bind_eq_some_iff.mp found
          obtain ⟨-, key⟩ := find_some there
          exact inv.look ⟨entry, List.mem_of_find?_eq_some here, key.symm⟩
      · exact inv
  | take c =>
      simp only [QpTable.step] at stepped
      split at stepped
      · rename_i qp found
        split at stepped
        · rename_i object there
          obtain rfl := Option.some.inj stepped
          obtain ⟨present, rfl⟩ := find_some there
          exact ((inv.pick found).leave rfl rfl).retain present
        · cases stepped
      · cases stepped
  | getLive qp =>
      obtain ⟨-, stepped⟩ := Option.ite_none_right_eq_some.mp stepped
      obtain ⟨object, there, rfl⟩ := Option.map_eq_some_iff.mp stepped
      obtain ⟨present, rfl⟩ := find_some there
      split
      · exact inv
      · exact inv.retain present
  | put c =>
      simp only [QpTable.step] at stepped
      split at stepped
      · rename_i qp found
        obtain ⟨object, there, rfl⟩ := Option.map_eq_some_iff.mp stepped
        have picked := inv.pick found
        have listed (listed : s.Listed qp) : qp ∈ (s.calls.eraseIdx c).filterMap QpCall.ref? :=
          picked.owner_of_listed listed rfl
        split
        · exact picked.release rfl ⟨rfl, rfl⟩ rfl (by simp) listed (by simp)
        · exact picked.release rfl ⟨rfl, rfl⟩ rfl (by simp) listed (by simp [Fits])
      · cases stepped
  | wake c =>
      simp only [QpTable.step] at stepped
      split at stepped
      · rename_i qp found
        obtain rfl := Option.some.inj stepped
        exact (inv.pick found).leave rfl rfl
      · cases stepped
  | schedule qp =>
      obtain ⟨-, stepped⟩ := Option.ite_none_right_eq_some.mp stepped
      obtain ⟨object, there, rfl⟩ := Option.map_eq_some_iff.mp stepped
      obtain ⟨present, rfl⟩ := find_some there
      split
      · exact inv
      · rename_i isOpen
        exact inv.schedule present (Bool.eq_false_iff.mpr isOpen)
  | workDone c =>
      simp only [QpTable.step] at stepped
      split at stepped
      · rename_i qp found
        obtain rfl := Option.some.inj stepped
        exact (inv.pick found).leave rfl rfl
      · cases stepped
  | destroy c =>
      simp only [QpTable.step] at stepped
      split at stepped
      · rename_i qp found
        obtain rfl := Option.some.inj stepped
        exact (inv.pick found).close rfl
      · cases stepped
  | cancelWork c =>
      simp only [QpTable.step] at stepped
      split at stepped
      · rename_i qp found
        obtain ⟨idle, stepped⟩ := Option.ite_none_left_eq_some.mp stepped
        obtain rfl := Option.some.inj stepped
        have picked := inv.pick found
        have shut := picked.fits _ List.mem_cons_self
        have still : .working qp ∉ s.calls.eraseIdx c := fun working => idle (List.mem_of_mem_eraseIdx working)
        apply picked.move ⟨rfl, rfl⟩ rfl (by simp)
        intro new member
        obtain rfl := List.mem_singleton.mp member
        exact ⟨shut, by simpa using still⟩
      · cases stepped
  | timeOut c =>
      simp only [QpTable.step] at stepped
      split at stepped
      · rename_i qp found
        obtain ⟨object, -, stepped⟩ := Option.bind_eq_some_iff.mp stepped
        obtain ⟨-, stepped⟩ := Option.ite_none_left_eq_some.mp stepped
        obtain rfl := Option.some.inj stepped
        exact (inv.pick found).move ⟨rfl, rfl⟩ rfl (by simp) (by simp [Fits])
      · cases stepped
  | seeAlone c =>
      simp only [QpTable.step] at stepped
      split at stepped
      · rename_i qp found
        obtain ⟨object, -, stepped⟩ := Option.bind_eq_some_iff.mp stepped
        obtain ⟨-, stepped⟩ := Option.ite_none_right_eq_some.mp stepped
        obtain rfl := Option.some.inj stepped
        have picked := inv.pick found
        have fits := picked.fits _ List.mem_cons_self
        apply picked.move ⟨rfl, rfl⟩ rfl (by simp)
        intro new member
        obtain rfl := List.mem_singleton.mp member
        exact ⟨fits.1, fun working => fits.2 (by simpa using working)⟩
      · cases stepped
  | erase c =>
      simp only [QpTable.step] at stepped
      split at stepped
      · rename_i qp found
        obtain ⟨free, stepped⟩ := Option.ite_none_right_eq_some.mp stepped
        obtain ⟨object, there, rfl⟩ := Option.map_eq_some_iff.mp stepped
        obtain ⟨present, rfl⟩ := find_some there
        exact (inv.pick found).erase rfl present free fun other => List.mem_of_mem_eraseIdx
      · cases stepped
  | putOwn c =>
      simp only [QpTable.step] at stepped
      split at stepped
      · rename_i qp found
        obtain ⟨object, there, rfl⟩ := Option.map_eq_some_iff.mp stepped
        obtain ⟨present, rfl⟩ := find_some there
        have picked := inv.pick found
        obtain ⟨shut, still, unlisted⟩ := picked.fits _ List.mem_cons_self
        apply picked.release rfl ⟨rfl, rfl⟩ rfl (by simp) (fun listed => absurd listed unlisted)
        intro new member
        obtain rfl := List.mem_singleton.mp member
        refine ⟨⟨?_, by simpa using still, unlisted⟩, inv.known object present⟩
        intro new inside same
        obtain ⟨old, listed, key, value⟩ := Counted.mem_release inside
        rw [value]
        exact shut old listed (key.symm.trans same)
      · cases stepped
  | free c =>
      simp only [QpTable.step] at stepped
      split at stepped
      · rename_i qp qpNum backend found
        obtain ⟨gone, stepped⟩ := Option.ite_none_left_eq_some.mp stepped
        obtain rfl := Option.some.inj stepped
        have missing : s.find qp = none := by simpa using gone
        have picked := inv.pick found
        have freed := picked.free (find_none missing)
        cases backend with
        | native => exact freed
        | apple => exact freed.give (picked.unused rfl)
      · cases stepped

theorem inv_reachable {appleEnabled : Bool} (reachable : (qpTableSystem appleEnabled).Reachable s) : s.Inv := by
  apply reachable.invariant
  · rintro s rfl
    exact Inv.start appleEnabled
  · intro s action s' inv _ stepped
    exact inv.step stepped

/-- A queue pair is freed by its owner. A number is given out again only after the Apple queue pair that had it is
freed, so a late frame for a native queue pair finds no other one. -/
structure Sound (s : QpTable) : Prop where
  counted : ∀ object ∈ s.qps, object.refs = s.holders.count object.key ∧ 0 < object.refs
  held : ∀ call ∈ s.calls, ∀ qp ∈ call.ref?, ∃ object ∈ s.qps, object.key = qp
  unfreed : ∀ call ∈ s.calls, ∀ qp ∈ call.touches?, qp ∈ s.owners ∨ call = .waking qp
  freedOnce : s.owners.Nodup
  table : ∀ entry ∈ s.xa, entry.2 ∈ s.owners ∧
    ∃ object ∈ s.qps, object.key = entry.2 ∧ object.value.qpNum = entry.1
  numbers : (s.xa.map Prod.fst).Nodup
  reuse : s.published.Pairwise fun later sooner =>
    later.qpNum = sooner.qpNum → sooner.backend = .apple ∧ sooner.qp ∉ s.owners

theorem Inv.held (inv : s.Inv) (member : call ∈ s.calls) {qp : Nat} (ref : call.ref? = some qp) :
    ∃ object ∈ s.qps, object.key = qp :=
  inv.balanced.live qp (List.mem_filterMap.mpr ⟨call, member, ref⟩)

theorem Inv.owner_of_entry (inv : s.Inv) {entry : Nat × Nat} (member : entry ∈ s.xa) : entry.2 ∈ s.owners := by
  obtain ⟨object, present, key, -⟩ := inv.table entry member
  rw [← key]
  exact inv.kept object present

theorem Inv.unfreed (inv : s.Inv) (member : call ∈ s.calls) {qp : Nat} (touches : call.touches? = some qp) :
    qp ∈ s.owners ∨ call = .waking qp := by
  have fits := inv.fits call member
  cases call with
  | creating => cases touches
  | waking =>
      cases touches
      exact .inr rfl
  | looking =>
      cases touches
      obtain ⟨entry, listed, rfl⟩ := fits
      exact .inl (inv.owner_of_entry listed)
  | holding =>
      obtain ⟨object, present, key⟩ := inv.held member touches
      rw [← key]
      exact .inl (inv.kept object present)
  | working =>
      cases touches
      exact .inl fits
  | handle | closing | waiting | alone | erased | draining => exact .inl (mem_owners member touches)

end QpTable

/-- Whatever threads look queue pairs up, hold them, queue their work and destroy them: nobody uses one that is
freed, but for a thread that put a reference and has still to wake the thread that waits for it. -/
theorem qps_outlive_uses {appleEnabled : Bool} {s : QpTable} (reachable : (qpTableSystem appleEnabled).Reachable s) :
    s.Sound := by
  have inv := QpTable.inv_reachable reachable
  refine ⟨?_, ?_, ?_, inv.single, ?_, inv.numbers, inv.numbered.reuse⟩
  · intro object member
    exact ⟨inv.balanced.counted object member, inv.balanced.held object member⟩
  · intro call member qp ref
    exact inv.held member ref
  · intro call member qp touches
    exact inv.unfreed member touches
  · intro entry member
    exact ⟨inv.owner_of_entry member, inv.table entry member⟩

/-- The receiver of a frame puts its reference, and `tbv_destroy_qp` is over before it wakes the waiters. -/
def lateWakeRun : List QpTableAction :=
  [.alloc .native, .publish 0 true, .look 0x900, .take 0, .destroy 1, .cancelWork 0, .put 1, .seeAlone 1, .erase 0,
    .putOwn 0, .free 0]

theorem qps_outlive_uses_lateWakeRun :
    ∃ s, (qpTableSystem false).Reachable s ∧ .waking 0 ∈ s.calls ∧ s.owners = [] ∧ s.ida = [0x900] ∧ s.Sound := by
  obtain ⟨s, reachable, seen⟩ := System.exists_reachableVia (qpTableSystem false) (fun _ _ => True) lateWakeRun
    (fun s => s.calls = [.waking 0] ∧ s.ida = [0x900]) rfl (by decide +kernel)
  obtain ⟨calls, ida⟩ := of_decide_eq_true seen
  refine ⟨s, reachable, ?_, ?_, ida, qps_outlive_uses reachable⟩
  · rw [calls]
    exact List.mem_singleton_self _
  · rw [QpTable.owners, calls]
    rfl

end ThunderboltVerbs.Driver
