import Mathlib.Algebra.Order.Ring.Nat
import Mathlib.Data.Multiset.AddSub
import Mathlib.Data.Multiset.UnionInter
import Mathlib.Logic.Function.Basic

/-!
# Reference-counted requests in a bounded queue

A request lives in a cell that is freed with its last reference. It takes a slot of the queue, is linked
into a list, and is taken off it to be completed or refused. Every reference belongs to somebody:
to the post that owns the request, to the list, to the handler that completes it, or to one of the
other holders. Cells are named by addresses, which are used again, and requests by serial numbers,
which are not.
-/

namespace ThunderboltVerbs.Lib

structure Cell where
  addr : Nat
  serial : Nat
  refs : Nat := 1
  completed : Bool := false
  deriving DecidableEq, Repr

namespace Cell

def retain (cells : List Cell) (addr : Nat) : List Cell :=
  cells.map fun cell => if cell.addr = addr then { cell with refs := cell.refs + 1 } else cell

def drop (cells : List Cell) (addr : Nat) : List Cell :=
  (cells.map fun cell => if cell.addr = addr then { cell with refs := cell.refs - 1 } else cell).filter
    fun cell => cell.refs ≠ 0

def finish (cells : List Cell) (addr : Nat) : List Cell :=
  cells.map fun cell => if cell.addr = addr then { cell with completed := true } else cell

def serialAt (cells : List Cell) (addr : Nat) : Nat :=
  ((cells.find? fun cell => cell.addr = addr).map Cell.serial).getD 0

/-! A cell keeps its address and its serial number. -/

theorem map_key {κ : Type} {key : Cell → κ} {f : Cell → Cell} (kept : ∀ cell, key (f cell) = key cell)
    (cells : List Cell) : (cells.map f).map key = cells.map key := by
  rw [List.map_map]
  exact List.map_congr_left fun cell _ => kept cell

theorem of_mem_retain {cells : List Cell} {addr : Nat} {cell : Cell} (member : cell ∈ retain cells addr) :
    ∃ old ∈ cells, old.addr = cell.addr ∧ old.serial = cell.serial := by
  obtain ⟨old, inside, rfl⟩ := List.mem_map.mp member
  refine ⟨old, inside, ?_⟩
  split <;> exact ⟨rfl, rfl⟩

theorem of_mem_drop {cells : List Cell} {addr : Nat} {cell : Cell} (member : cell ∈ drop cells addr) :
    ∃ old ∈ cells, old.addr = cell.addr ∧ old.serial = cell.serial := by
  obtain ⟨old, inside, rfl⟩ := List.mem_map.mp (List.mem_filter.mp member).1
  refine ⟨old, inside, ?_⟩
  split <;> exact ⟨rfl, rfl⟩

theorem of_mem_finish {cells : List Cell} {addr : Nat} {cell : Cell} (member : cell ∈ finish cells addr) :
    ∃ old ∈ cells, old.addr = cell.addr ∧ old.serial = cell.serial := by
  obtain ⟨old, inside, rfl⟩ := List.mem_map.mp member
  refine ⟨old, inside, ?_⟩
  split <;> exact ⟨rfl, rfl⟩

end Cell

inductive Mark
  | reserved | released | refused | completed
  deriving DecidableEq, Repr

abbrev History := Nat → List Mark

def History.mark (history : History) (serial : Nat) (mark : Mark) : History :=
  Function.update history serial (mark :: history serial)

structure Ledger where
  cells : List Cell
  fresh : Multiset Nat
  slots : Multiset Nat
  listed : Multiset Nat
  due : Multiset Nat
  held : Multiset Nat
  count : Nat
  max : Nat
  serials : Nat
  history : History
  /-- The requests in the order of their completion. -/
  completed : List Nat

namespace Ledger

def pending (ledger : Ledger) : Multiset Nat :=
  ledger.fresh + ledger.slots + ledger.listed + ledger.due

inductive Move : Ledger → Ledger → Prop
  | allocate {ledger : Ledger} {addr : Nat} (free : ∀ cell ∈ ledger.cells, cell.addr ≠ addr) :
      Move ledger
        { ledger with
          cells := { addr, serial := ledger.serials } :: ledger.cells
          fresh := addr ::ₘ ledger.fresh
          serials := ledger.serials + 1 }
  | reserve {ledger : Ledger} {cell : Cell} {fresh : Multiset Nat} (live : cell ∈ ledger.cells)
      (here : ledger.fresh = cell.addr ::ₘ fresh) (room : ledger.count < ledger.max) :
      Move ledger
        { ledger with
          fresh
          slots := cell.addr ::ₘ ledger.slots
          count := ledger.count + 1
          history := ledger.history.mark cell.serial .reserved }
  | link {ledger : Ledger} {addr : Nat} {slots : Multiset Nat} (here : ledger.slots = addr ::ₘ slots) :
      Move ledger { ledger with slots, listed := addr ::ₘ ledger.listed }
  | take {ledger : Ledger} {cell : Cell} {listed : Multiset Nat} (live : cell ∈ ledger.cells)
      (here : ledger.listed = cell.addr ::ₘ listed) :
      Move ledger
        { ledger with
          listed
          due := cell.addr ::ₘ ledger.due
          count := ledger.count - 1
          history := ledger.history.mark cell.serial .released }
  | complete {ledger : Ledger} {cell : Cell} {due : Multiset Nat} (live : cell ∈ ledger.cells)
      (here : ledger.due = cell.addr ::ₘ due) :
      Move ledger
        { ledger with
          cells := Cell.finish ledger.cells cell.addr
          due
          held := cell.addr ::ₘ ledger.held
          history := ledger.history.mark cell.serial .completed
          completed := ledger.completed ++ [cell.serial] }
  | refuseFresh {ledger : Ledger} {cell : Cell} {fresh : Multiset Nat} (live : cell ∈ ledger.cells)
      (here : ledger.fresh = cell.addr ::ₘ fresh) :
      Move ledger
        { ledger with
          fresh
          held := cell.addr ::ₘ ledger.held
          history := ledger.history.mark cell.serial .refused }
  | refuseSlot {ledger : Ledger} {cell : Cell} {slots : Multiset Nat} (live : cell ∈ ledger.cells)
      (here : ledger.slots = cell.addr ::ₘ slots) :
      Move ledger
        { ledger with
          slots
          held := cell.addr ::ₘ ledger.held
          count := ledger.count - 1
          history := (ledger.history.mark cell.serial .released).mark cell.serial .refused }
  | refuseListed {ledger : Ledger} {cell : Cell} {listed : Multiset Nat} (live : cell ∈ ledger.cells)
      (here : ledger.listed = cell.addr ::ₘ listed) :
      Move ledger
        { ledger with
          listed
          held := cell.addr ::ₘ ledger.held
          count := ledger.count - 1
          history := (ledger.history.mark cell.serial .released).mark cell.serial .refused }
  | refuseDue {ledger : Ledger} {cell : Cell} {due : Multiset Nat} (live : cell ∈ ledger.cells)
      (here : ledger.due = cell.addr ::ₘ due) :
      Move ledger
        { ledger with
          due
          held := cell.addr ::ₘ ledger.held
          history := ledger.history.mark cell.serial .refused }
  | retain {ledger : Ledger} {addr : Nat} (live : ∃ cell ∈ ledger.cells, cell.addr = addr) :
      Move ledger
        { ledger with
          cells := Cell.retain ledger.cells addr
          held := addr ::ₘ ledger.held }
  | drop {ledger : Ledger} {addr : Nat} {held : Multiset Nat} (here : ledger.held = addr ::ₘ held) :
      Move ledger { ledger with cells := Cell.drop ledger.cells addr, held }

inductive Moves : Ledger → Ledger → Prop
  | none (ledger : Ledger) : Moves ledger ledger
  | more {first second third : Ledger} (earlier : Moves first second) (last : Move second third) :
      Moves first third

theorem Moves.trans {first second third : Ledger} (earlier : Moves first second)
    (later : Moves second third) : Moves first third := by
  induction later with
  | none => exact earlier
  | more _ last ih => exact .more ih last

theorem Move.moves {first second : Ledger} (move : Move first second) : Moves first second :=
  .more (.none first) move

/-! ## The invariant -/

def ended : List (List Mark) :=
  [[.refused], [.refused, .released, .reserved], [.completed, .released, .reserved]]

structure Balanced (ledger : Ledger) : Prop where
  addrs : (ledger.cells.map Cell.addr).Nodup
  serials : (ledger.cells.map Cell.serial).Nodup
  bound : ∀ cell ∈ ledger.cells, cell.serial < ledger.serials
  refs : ∀ cell ∈ ledger.cells, cell.refs = (ledger.pending + ledger.held).count cell.addr
  positive : ∀ cell ∈ ledger.cells, cell.refs ≠ 0
  live : ∀ addr ∈ ledger.pending + ledger.held, ∃ cell ∈ ledger.cells, cell.addr = addr
  exclusive : ledger.pending.Nodup
  size : ledger.count = ledger.slots.card + ledger.listed.card
  room : ledger.count ≤ ledger.max
  open_ : ∀ cell ∈ ledger.cells, cell.addr ∈ ledger.pending → cell.completed = false
  fresh : ∀ cell ∈ ledger.cells, cell.addr ∈ ledger.fresh → ledger.history cell.serial = []
  counted : ∀ cell ∈ ledger.cells, cell.addr ∈ ledger.slots + ledger.listed →
    ledger.history cell.serial = [.reserved]
  due : ∀ cell ∈ ledger.cells, cell.addr ∈ ledger.due →
    ledger.history cell.serial = [.released, .reserved]
  closed : ∀ serial < ledger.serials,
    (∃ cell ∈ ledger.cells, cell.serial = serial ∧ cell.addr ∈ ledger.pending) ∨
      ledger.history serial ∈ ended
  unborn : ∀ serial, ledger.serials ≤ serial → ledger.history serial = []
  log : ∀ serial, ledger.completed.count serial = (ledger.history serial).count .completed

structure Relocates (cell : Cell) (marks : List Mark) (before after : Ledger) : Prop where
  cells : ∃ f : Cell → Cell, after.cells = before.cells.map f ∧
    ∀ each, (f each).addr = each.addr ∧ (f each).serial = each.serial ∧ (f each).refs = each.refs ∧
      (each.addr ∈ after.pending → (f each).completed = each.completed)
  tokens : after.pending + after.held = before.pending + before.held
  smaller : after.pending ≤ before.pending
  others : ∀ addr ≠ cell.addr, (addr ∈ after.fresh ↔ addr ∈ before.fresh) ∧
    (addr ∈ after.slots + after.listed ↔ addr ∈ before.slots + before.listed) ∧
    (addr ∈ after.due ↔ addr ∈ before.due)
  history : after.history = Function.update before.history cell.serial marks
  fresh : cell.addr ∈ after.fresh → marks = []
  counted : cell.addr ∈ after.slots + after.listed → marks = [.reserved]
  due : cell.addr ∈ after.due → marks = [.released, .reserved]
  place : cell.addr ∈ after.pending ∨ marks ∈ ended
  size : after.count = after.slots.card + after.listed.card
  room : after.count ≤ after.max
  serials : after.serials = before.serials
  log : ∀ serial, after.completed.count serial = (after.history serial).count .completed

theorem mem_pending {ledger : Ledger} {addr : Nat} : addr ∈ ledger.pending ↔
    addr ∈ ledger.fresh ∨ addr ∈ ledger.slots + ledger.listed ∨ addr ∈ ledger.due := by
  simp only [pending, Multiset.mem_add]
  tauto

section Steps

variable {before after : Ledger} {cell other : Cell}

theorem Balanced.eq_of_addr (balanced : before.Balanced) (first : cell ∈ before.cells)
    (second : other ∈ before.cells) (same : cell.addr = other.addr) : cell = other :=
  List.inj_on_of_nodup_map balanced.addrs first second same

theorem Balanced.eq_of_serial (balanced : before.Balanced) (first : cell ∈ before.cells)
    (second : other ∈ before.cells) (same : cell.serial = other.serial) : cell = other :=
  List.inj_on_of_nodup_map balanced.serials first second same

theorem Balanced.relocate (balanced : before.Balanced) (live : cell ∈ before.cells) (marks : List Mark)
    (moved : Relocates cell marks before after) : after.Balanced := by
  obtain ⟨f, cells, kept⟩ := moved.cells
  have origin : ∀ each ∈ after.cells, ∃ old ∈ before.cells, each.addr = old.addr ∧
      each.serial = old.serial ∧ each.refs = old.refs ∧
      (old.addr ∈ after.pending → each.completed = old.completed) := by
    intro each member
    rw [cells] at member
    obtain ⟨old, inside, rfl⟩ := List.mem_map.mp member
    exact ⟨old, inside, kept old⟩
  have image : ∀ old ∈ before.cells, ∃ each ∈ after.cells, each.addr = old.addr ∧
      each.serial = old.serial :=
    fun old inside => ⟨f old, cells ▸ List.mem_map_of_mem inside, (kept old).1, (kept old).2.1⟩
  -- The marks of a request are those of its place, whether it is the one that moved or not.
  have marked : ∀ old ∈ before.cells, ∀ {expected : List Mark},
      (old.addr = cell.addr → marks = expected) →
      (old.addr ≠ cell.addr → before.history old.serial = expected) →
      after.history old.serial = expected := by
    intro old inside expected same different
    by_cases here : old.addr = cell.addr
    · obtain rfl := balanced.eq_of_addr inside live here
      rw [moved.history, Function.update_self]
      exact same rfl
    · have serial : old.serial ≠ cell.serial :=
        fun equal => here (congrArg Cell.addr (balanced.eq_of_serial inside live equal))
      rw [moved.history, Function.update_of_ne serial]
      exact different here
  constructor
  case addrs =>
    rw [cells, Cell.map_key fun each => (kept each).1]
    exact balanced.addrs
  case serials =>
    rw [cells, Cell.map_key fun each => (kept each).2.1]
    exact balanced.serials
  case bound =>
    intro each member
    obtain ⟨old, inside, -, serial, -⟩ := origin each member
    rw [serial, moved.serials]
    exact balanced.bound old inside
  case refs =>
    intro each member
    obtain ⟨old, inside, addr, -, refs, -⟩ := origin each member
    rw [addr, refs, moved.tokens]
    exact balanced.refs old inside
  case positive =>
    intro each member
    obtain ⟨old, inside, -, -, refs, -⟩ := origin each member
    exact refs ▸ balanced.positive old inside
  case live =>
    intro addr token
    obtain ⟨old, inside, rfl⟩ := balanced.live addr (moved.tokens ▸ token)
    obtain ⟨each, member, same, -⟩ := image old inside
    exact ⟨each, member, same⟩
  case exclusive => exact Multiset.nodup_of_le moved.smaller balanced.exclusive
  case size => exact moved.size
  case room => exact moved.room
  case open_ =>
    intro each member open_
    obtain ⟨old, inside, addr, -, -, completed⟩ := origin each member
    rw [addr] at open_
    rw [completed open_]
    exact balanced.open_ old inside (Multiset.mem_of_le moved.smaller open_)
  case fresh =>
    intro each member place
    obtain ⟨old, inside, addr, serial, -⟩ := origin each member
    rw [addr] at place
    rw [serial]
    refine marked old inside (fun same => moved.fresh (same ▸ place)) ?_
    exact fun different => balanced.fresh old inside ((moved.others _ different).1.mp place)
  case counted =>
    intro each member place
    obtain ⟨old, inside, addr, serial, -⟩ := origin each member
    rw [addr] at place
    rw [serial]
    refine marked old inside (fun same => moved.counted (same ▸ place)) ?_
    exact fun different => balanced.counted old inside ((moved.others _ different).2.1.mp place)
  case due =>
    intro each member place
    obtain ⟨old, inside, addr, serial, -⟩ := origin each member
    rw [addr] at place
    rw [serial]
    refine marked old inside (fun same => moved.due (same ▸ place)) ?_
    exact fun different => balanced.due old inside ((moved.others _ different).2.2.mp place)
  case closed =>
    intro serial below
    rw [moved.serials] at below
    by_cases here : serial = cell.serial
    · subst here
      rcases moved.place with open_ | done
      · obtain ⟨each, member, addr, same⟩ := image cell live
        exact .inl ⟨each, member, same, addr ▸ open_⟩
      · right
        rw [moved.history, Function.update_self]
        exact done
    · rcases balanced.closed serial below with ⟨old, inside, same, open_⟩ | done
      · obtain ⟨each, member, addr, equal⟩ := image old inside
        have different : old.addr ≠ cell.addr := by
          intro equalAddr
          rw [balanced.eq_of_addr inside live equalAddr] at same
          exact here same.symm
        obtain ⟨fresh, counted, due⟩ := moved.others old.addr different
        refine .inl ⟨each, member, equal.trans same, ?_⟩
        rw [addr, mem_pending, fresh, counted, due, ← mem_pending]
        exact open_
      · right
        rw [moved.history, Function.update_of_ne here]
        exact done
  case unborn =>
    intro serial beyond
    rw [moved.serials] at beyond
    have different : serial ≠ cell.serial := by
      have below := balanced.bound cell live
      omega
    rw [moved.history, Function.update_of_ne different]
    exact balanced.unborn serial beyond
  case log => exact moved.log

theorem Balanced.log_mark (balanced : before.Balanced) (serial : Nat) {mark : Mark}
    (other : mark ≠ .completed) (each : Nat) :
    before.completed.count each = ((before.history.mark serial mark) each).count .completed := by
  rw [balanced.log each, History.mark]
  by_cases same : each = serial
  · subst same
    rw [Function.update_self, List.count_cons_of_ne other]
  · rw [Function.update_of_ne same]

theorem Balanced.reserve {fresh : Multiset Nat} (balanced : before.Balanced)
    (live : cell ∈ before.cells) (here : before.fresh = cell.addr ::ₘ fresh)
    (room : before.count < before.max) :
    Balanced
      { before with
        fresh
        slots := cell.addr ::ₘ before.slots
        count := before.count + 1
        history := before.history.mark cell.serial .reserved } := by
  have empty := balanced.fresh cell live (here ▸ Multiset.mem_cons_self _ _)
  have apart := balanced.exclusive
  have size := balanced.size
  simp only [pending, here, Multiset.cons_add, Multiset.nodup_cons, Multiset.mem_add, not_or] at apart
  refine balanced.relocate live [.reserved] ?_
  constructor
  case cells => exact ⟨id, (List.map_id _).symm, fun each => ⟨rfl, rfl, rfl, fun _ => rfl⟩⟩
  case tokens => simp [pending, here]
  case smaller => simp [pending, here]
  case others =>
    intro addr different
    simp [here, different]
  case history => rw [History.mark, empty]
  case fresh => exact fun again => absurd again apart.1.1.1.1
  case counted => exact fun _ => rfl
  case due => exact fun again => absurd again apart.1.2
  case place => simp [pending]
  case size =>
    simp only [Multiset.card_cons]
    omega
  case room => exact room
  case serials => rfl
  case log => exact balanced.log_mark cell.serial nofun

theorem Balanced.link {addr : Nat} {slots : Multiset Nat} (balanced : before.Balanced)
    (here : before.slots = addr ::ₘ slots) :
    Balanced { before with slots, listed := addr ::ₘ before.listed } := by
  have inside : addr ∈ before.slots + before.listed := by simp [here]
  have token : addr ∈ before.pending + before.held := by simp [pending, here]
  obtain ⟨cell, live, rfl⟩ := balanced.live addr token
  have counted := balanced.counted cell live inside
  have apart := balanced.exclusive
  have size := balanced.size
  have same : slots + cell.addr ::ₘ before.listed = before.slots + before.listed := by simp [here]
  simp only [pending, here, Multiset.cons_add, Multiset.add_cons, Multiset.nodup_cons, Multiset.mem_add,
    not_or] at apart
  refine balanced.relocate live [.reserved] ?_
  constructor
  case cells => exact ⟨id, (List.map_id _).symm, fun each => ⟨rfl, rfl, rfl, fun _ => rfl⟩⟩
  case tokens => simp [pending, here]
  case smaller => simp [pending, here]
  case others =>
    intro addr different
    rw [same]
    simp
  case history => rw [← counted, Function.update_eq_self]
  case fresh => exact fun again => absurd again apart.1.1.1.1
  case counted => exact fun _ => rfl
  case due => exact fun again => absurd again apart.1.2
  case place => simp [pending]
  case size =>
    simp only [here, Multiset.card_cons] at size ⊢
    omega
  case room => exact balanced.room
  case serials => rfl
  case log => exact balanced.log

theorem Balanced.take {listed : Multiset Nat} (balanced : before.Balanced) (live : cell ∈ before.cells)
    (here : before.listed = cell.addr ::ₘ listed) :
    Balanced
      { before with
        listed
        due := cell.addr ::ₘ before.due
        count := before.count - 1
        history := before.history.mark cell.serial .released } := by
  have counted := balanced.counted cell live (by simp [here])
  have apart := balanced.exclusive
  have size := balanced.size
  have room := balanced.room
  simp only [pending, here, Multiset.cons_add, Multiset.add_cons, Multiset.nodup_cons, Multiset.mem_add,
    not_or] at apart
  refine balanced.relocate live [.released, .reserved] ?_
  constructor
  case cells => exact ⟨id, (List.map_id _).symm, fun each => ⟨rfl, rfl, rfl, fun _ => rfl⟩⟩
  case tokens => simp [pending, here]
  case smaller => simp [pending, here]
  case others =>
    intro addr different
    simp [here, different]
  case history => rw [History.mark, counted]
  case fresh => exact fun again => absurd again apart.1.1.1.1
  case counted =>
    intro again
    rcases Multiset.mem_add.mp again with slot | still
    · exact absurd slot apart.1.1.1.2
    · exact absurd still apart.1.1.2
  case due => exact fun _ => rfl
  case place => simp [pending]
  case size =>
    simp only [here, Multiset.card_cons] at size ⊢
    omega
  case room =>
    simp only
    omega
  case serials => rfl
  case log => exact balanced.log_mark cell.serial nofun

theorem Balanced.leave {marks : List Mark} (balanced : before.Balanced) (live : cell ∈ before.cells)
    (place : before.pending = cell.addr ::ₘ after.pending) (held : after.held = cell.addr ::ₘ before.held)
    (cells : after.cells = before.cells ∨ after.cells = Cell.finish before.cells cell.addr)
    (others : ∀ addr ≠ cell.addr, (addr ∈ after.fresh ↔ addr ∈ before.fresh) ∧
      (addr ∈ after.slots + after.listed ↔ addr ∈ before.slots + before.listed) ∧
      (addr ∈ after.due ↔ addr ∈ before.due))
    (history : after.history = Function.update before.history cell.serial marks) (done : marks ∈ ended)
    (size : after.count = after.slots.card + after.listed.card) (room : after.count ≤ after.max)
    (serials : after.serials = before.serials)
    (log : ∀ serial, after.completed.count serial = (after.history serial).count .completed) :
    after.Balanced := by
  have apart := balanced.exclusive
  rw [place, Multiset.nodup_cons] at apart
  have gone := apart.1
  rw [mem_pending, not_or, not_or] at gone
  refine balanced.relocate live marks ?_
  constructor
  case cells =>
    rcases cells with same | finished
    · exact ⟨id, same.trans (List.map_id _).symm, fun each => ⟨rfl, rfl, rfl, fun _ => rfl⟩⟩
    · refine ⟨_, finished, fun each => ?_⟩
      by_cases same : each.addr = cell.addr
      · simp [same, apart.1]
      · simp [same]
  case tokens => rw [place, held, Multiset.add_cons, Multiset.cons_add]
  case smaller => exact place ▸ Multiset.le_cons_self _ _
  case others => exact others
  case history => exact history
  case fresh => exact fun again => absurd again gone.1
  case counted => exact fun again => absurd again gone.2.1
  case due => exact fun again => absurd again gone.2.2
  case place => exact .inr done
  case size => exact size
  case room => exact room
  case serials => exact serials
  case log => exact log

theorem Balanced.complete {due : Multiset Nat} (balanced : before.Balanced) (live : cell ∈ before.cells)
    (here : before.due = cell.addr ::ₘ due) :
    Balanced
      { before with
        cells := Cell.finish before.cells cell.addr
        due
        held := cell.addr ::ₘ before.held
        history := before.history.mark cell.serial .completed
        completed := before.completed ++ [cell.serial] } := by
  have marks := balanced.due cell live (by simp [here])
  refine balanced.leave live (by simp [pending, here]) rfl (.inr rfl) ?_ rfl ?_ balanced.size
    balanced.room rfl ?_
  · intro addr different
    simp [here, different]
  · rw [marks]
    decide
  · intro serial
    simp only [List.count_append, balanced.log, History.mark]
    by_cases same : serial = cell.serial
    · subst same
      rw [Function.update_self, List.count_singleton_self, List.count_cons_self]
    · rw [Function.update_of_ne same, List.count_singleton, if_neg (by simpa using Ne.symm same),
        Nat.add_zero]

theorem Balanced.refuseDue {due : Multiset Nat} (balanced : before.Balanced) (live : cell ∈ before.cells)
    (here : before.due = cell.addr ::ₘ due) :
    Balanced
      { before with
        due
        held := cell.addr ::ₘ before.held
        history := before.history.mark cell.serial .refused } := by
  have marks := balanced.due cell live (by simp [here])
  refine balanced.leave live (by simp [pending, here]) rfl (.inl rfl) ?_ rfl ?_ balanced.size
    balanced.room rfl (balanced.log_mark cell.serial nofun)
  · intro addr different
    simp [here, different]
  · rw [marks]
    decide

theorem Balanced.refuseFresh {fresh : Multiset Nat} (balanced : before.Balanced)
    (live : cell ∈ before.cells) (here : before.fresh = cell.addr ::ₘ fresh) :
    Balanced
      { before with
        fresh
        held := cell.addr ::ₘ before.held
        history := before.history.mark cell.serial .refused } := by
  have marks := balanced.fresh cell live (by simp [here])
  refine balanced.leave live (by simp [pending, here]) rfl (.inl rfl) ?_ rfl ?_ balanced.size
    balanced.room rfl (balanced.log_mark cell.serial nofun)
  · intro addr different
    simp [here, different]
  · rw [marks]
    decide

theorem Balanced.log_marks (balanced : before.Balanced) (serial : Nat) {first second : Mark}
    (other : first ≠ .completed) (another : second ≠ .completed) (each : Nat) :
    before.completed.count each =
      (((before.history.mark serial first).mark serial second) each).count .completed := by
  have once := balanced.log_mark serial other each
  rw [once, History.mark.eq_1 (before.history.mark serial first)]
  by_cases same : each = serial
  · subst same
    rw [Function.update_self, List.count_cons_of_ne another]
  · rw [Function.update_of_ne same]

theorem mark_twice (history : History) (serial : Nat) (first second : Mark) :
    (history.mark serial first).mark serial second =
      Function.update history serial (second :: first :: history serial) := by
  simp [History.mark]

theorem Balanced.refuseSlot {slots : Multiset Nat} (balanced : before.Balanced)
    (live : cell ∈ before.cells) (here : before.slots = cell.addr ::ₘ slots) :
    Balanced
      { before with
        slots
        held := cell.addr ::ₘ before.held
        count := before.count - 1
        history := (before.history.mark cell.serial .released).mark cell.serial .refused } := by
  have marks := balanced.counted cell live (by simp [here])
  have size := balanced.size
  have room := balanced.room
  refine balanced.leave live (by simp [pending, here]) rfl (.inl rfl) ?_ (mark_twice ..) ?_ ?_ ?_ rfl ?_
  · intro addr different
    simp [here, different]
  · rw [marks]
    decide
  · simp only [here, Multiset.card_cons] at size ⊢
    omega
  · simp only
    omega
  · exact balanced.log_marks cell.serial nofun nofun

theorem Balanced.refuseListed {listed : Multiset Nat} (balanced : before.Balanced)
    (live : cell ∈ before.cells) (here : before.listed = cell.addr ::ₘ listed) :
    Balanced
      { before with
        listed
        held := cell.addr ::ₘ before.held
        count := before.count - 1
        history := (before.history.mark cell.serial .released).mark cell.serial .refused } := by
  have marks := balanced.counted cell live (by simp [here])
  have size := balanced.size
  have room := balanced.room
  refine balanced.leave live (by simp [pending, here]) rfl (.inl rfl) ?_ (mark_twice ..) ?_ ?_ ?_ rfl ?_
  · intro addr different
    simp [here, different]
  · rw [marks]
    decide
  · simp only [here, Multiset.card_cons] at size ⊢
    omega
  · simp only
    omega
  · exact balanced.log_marks cell.serial nofun nofun

theorem Balanced.allocate {addr : Nat} (balanced : before.Balanced)
    (free : ∀ cell ∈ before.cells, cell.addr ≠ addr) :
    Balanced
      { before with
        cells := { addr, serial := before.serials } :: before.cells
        fresh := addr ::ₘ before.fresh
        serials := before.serials + 1 } := by
  have unknown : addr ∉ before.pending + before.held := by
    intro token
    obtain ⟨cell, live, same⟩ := balanced.live addr token
    exact free cell live same
  have unpending : addr ∉ before.pending := fun inside => unknown (by simp [inside])
  have distinct := unpending
  simp only [pending, Multiset.mem_add, not_or] at distinct
  constructor
  case addrs =>
    simp only [List.map_cons, List.nodup_cons, List.mem_map, not_exists, not_and]
    exact ⟨fun cell live same => free cell live same, balanced.addrs⟩
  case serials =>
    simp only [List.map_cons, List.nodup_cons, List.mem_map, not_exists, not_and]
    refine ⟨fun cell live same => ?_, balanced.serials⟩
    have below := balanced.bound cell live
    omega
  case bound =>
    intro cell member
    rcases List.mem_cons.mp member with rfl | old
    · exact Nat.lt_succ_self _
    · exact Nat.lt_succ_of_lt (balanced.bound cell old)
  case refs =>
    intro cell member
    simp only [pending, Multiset.cons_add]
    rcases List.mem_cons.mp member with rfl | old
    · have none : Multiset.count addr (before.pending + before.held) = 0 :=
        Multiset.count_eq_zero_of_notMem unknown
      rw [Multiset.count_cons_self]
      exact (congrArg (· + 1) none).symm
    · rw [Multiset.count_cons_of_ne (free cell old)]
      exact balanced.refs cell old
  case positive =>
    intro cell member
    rcases List.mem_cons.mp member with rfl | old
    · exact Nat.one_ne_zero
    · exact balanced.positive cell old
  case live =>
    intro token member
    simp only [pending, Multiset.cons_add, Multiset.mem_cons] at member
    rcases member with rfl | old
    · exact ⟨_, List.mem_cons_self, rfl⟩
    · obtain ⟨cell, live, same⟩ := balanced.live token old
      exact ⟨cell, List.mem_cons_of_mem _ live, same⟩
  case exclusive =>
    simp only [pending, Multiset.cons_add, Multiset.nodup_cons]
    exact ⟨unpending, balanced.exclusive⟩
  case size => exact balanced.size
  case room => exact balanced.room
  case open_ =>
    intro cell member open_
    simp only [pending, Multiset.cons_add, Multiset.mem_cons] at open_
    rcases List.mem_cons.mp member with rfl | old
    · rfl
    · exact balanced.open_ cell old (open_.resolve_left (free cell old))
  case fresh =>
    intro cell member place
    rcases List.mem_cons.mp member with rfl | old
    · exact balanced.unborn _ (Nat.le_refl _)
    · exact balanced.fresh cell old ((Multiset.mem_cons.mp place).resolve_left (free cell old))
  case counted =>
    intro cell member place
    rcases List.mem_cons.mp member with rfl | old
    · simp only [Multiset.mem_add] at place
      rcases place with slot | listed
      · exact absurd slot distinct.1.1.2
      · exact absurd listed distinct.1.2
    · exact balanced.counted cell old place
  case due =>
    intro cell member place
    rcases List.mem_cons.mp member with rfl | old
    · exact absurd place distinct.2
    · exact balanced.due cell old place
  case closed =>
    intro serial below
    by_cases new : serial = before.serials
    · refine .inl ⟨_, List.mem_cons_self, new.symm, ?_⟩
      simp [pending]
    · rcases balanced.closed serial (by simp only at below; omega) with ⟨cell, live, same, open_⟩ | done
      · refine .inl ⟨cell, List.mem_cons_of_mem _ live, same, ?_⟩
        simp only [pending, Multiset.cons_add, Multiset.mem_cons]
        exact .inr open_
      · exact .inr done
  case unborn => exact fun serial beyond => balanced.unborn serial (Nat.le_of_succ_le beyond)
  case log => exact balanced.log

theorem Balanced.recount {cells : List Cell} {held : Multiset Nat} (balanced : before.Balanced)
    (addrs : (cells.map Cell.addr).Nodup) (serials : (cells.map Cell.serial).Nodup)
    (origin : ∀ each ∈ cells, ∃ old ∈ before.cells, each.addr = old.addr ∧ each.serial = old.serial ∧
      each.completed = old.completed)
    (refs : ∀ each ∈ cells, each.refs = (before.pending + held).count each.addr ∧ each.refs ≠ 0)
    (kept : ∀ old ∈ before.cells, old.addr ∈ before.pending + held →
      ∃ each ∈ cells, each.addr = old.addr ∧ each.serial = old.serial)
    (known : ∀ addr ∈ held, ∃ old ∈ before.cells, old.addr = addr) :
    Balanced { before with cells, held } := by
  have open_ : ∀ old ∈ before.cells, old.addr ∈ before.pending →
      ∃ each ∈ cells, each.addr = old.addr ∧ each.serial = old.serial :=
    fun old inside place => kept old inside (Multiset.mem_add.mpr (.inl place))
  constructor
  case addrs => exact addrs
  case serials => exact serials
  case bound =>
    intro each member
    obtain ⟨old, inside, -, serial, -⟩ := origin each member
    exact serial ▸ balanced.bound old inside
  case refs => exact fun each member => (refs each member).1
  case positive => exact fun each member => (refs each member).2
  case live =>
    intro addr token
    have old : ∃ old ∈ before.cells, old.addr = addr := by
      rcases Multiset.mem_add.mp token with place | other
      · exact balanced.live addr (Multiset.mem_add.mpr (.inl place))
      · exact known addr other
    obtain ⟨old, inside, rfl⟩ := old
    obtain ⟨each, member, same, -⟩ := kept old inside token
    exact ⟨each, member, same⟩
  case exclusive => exact balanced.exclusive
  case size => exact balanced.size
  case room => exact balanced.room
  case open_ =>
    intro each member place
    obtain ⟨old, inside, addr, -, completed⟩ := origin each member
    exact completed.trans (balanced.open_ old inside (addr ▸ place))
  case fresh =>
    intro each member place
    obtain ⟨old, inside, addr, serial, -⟩ := origin each member
    exact serial ▸ balanced.fresh old inside (addr ▸ place)
  case counted =>
    intro each member place
    obtain ⟨old, inside, addr, serial, -⟩ := origin each member
    exact serial ▸ balanced.counted old inside (addr ▸ place)
  case due =>
    intro each member place
    obtain ⟨old, inside, addr, serial, -⟩ := origin each member
    exact serial ▸ balanced.due old inside (addr ▸ place)
  case closed =>
    intro serial below
    rcases balanced.closed serial below with ⟨old, inside, same, place⟩ | done
    · obtain ⟨each, member, addr, equal⟩ := open_ old inside place
      exact .inl ⟨each, member, equal.trans same, addr ▸ place⟩
    · exact .inr done
  case unborn => exact balanced.unborn
  case log => exact balanced.log

theorem Balanced.retain {addr : Nat} (balanced : before.Balanced)
    (live : ∃ cell ∈ before.cells, cell.addr = addr) :
    Balanced { before with cells := Cell.retain before.cells addr, held := addr ::ₘ before.held } := by
  have kept : ∀ old : Cell, (if old.addr = addr then { old with refs := old.refs + 1 } else old).addr =
      old.addr ∧ (if old.addr = addr then { old with refs := old.refs + 1 } else old).serial = old.serial ∧
      (if old.addr = addr then { old with refs := old.refs + 1 } else old).completed = old.completed := by
    intro old
    split <;> exact ⟨rfl, rfl, rfl⟩
  have addrs : (Cell.retain before.cells addr).map Cell.addr = before.cells.map Cell.addr :=
    Cell.map_key (fun old => (kept old).1) before.cells
  have serials : (Cell.retain before.cells addr).map Cell.serial = before.cells.map Cell.serial :=
    Cell.map_key (fun old => (kept old).2.1) before.cells
  refine balanced.recount (addrs ▸ balanced.addrs) (serials ▸ balanced.serials) ?_ ?_ ?_ ?_
  · intro each member
    obtain ⟨old, inside, rfl⟩ := List.mem_map.mp member
    exact ⟨old, inside, kept old⟩
  · intro each member
    obtain ⟨old, inside, rfl⟩ := List.mem_map.mp member
    have refs := balanced.refs old inside
    rw [Multiset.add_cons]
    by_cases same : old.addr = addr
    · simp only [same, if_true, Multiset.count_cons_self] at refs ⊢
      omega
    · simp only [same, if_false, Multiset.count_cons_of_ne same]
      exact ⟨refs, balanced.positive old inside⟩
  · intro old inside _
    exact ⟨_, List.mem_map_of_mem inside, (kept old).1, (kept old).2.1⟩
  · intro token member
    rcases Multiset.mem_cons.mp member with rfl | other
    · exact live
    · exact balanced.live token (Multiset.mem_add.mpr (.inr other))

theorem Balanced.drop {addr : Nat} {held : Multiset Nat} (balanced : before.Balanced)
    (here : before.held = addr ::ₘ held) :
    Balanced { before with cells := Cell.drop before.cells addr, held } := by
  have kept : ∀ old : Cell, (if old.addr = addr then { old with refs := old.refs - 1 } else old).addr =
      old.addr ∧ (if old.addr = addr then { old with refs := old.refs - 1 } else old).serial = old.serial ∧
      (if old.addr = addr then { old with refs := old.refs - 1 } else old).completed = old.completed := by
    intro old
    split <;> exact ⟨rfl, rfl, rfl⟩
  have addrs : ((Cell.drop before.cells addr).map Cell.addr).Sublist (before.cells.map Cell.addr) := by
    rw [← Cell.map_key (fun old => (kept old).1) before.cells]
    exact List.Sublist.map _ List.filter_sublist
  have serials : ((Cell.drop before.cells addr).map Cell.serial).Sublist (before.cells.map Cell.serial) := by
    rw [← Cell.map_key (fun old => (kept old).2.1) before.cells]
    exact List.Sublist.map _ List.filter_sublist
  have refs : ∀ old ∈ before.cells,
      (if old.addr = addr then { old with refs := old.refs - 1 } else old).refs =
        (before.pending + held).count old.addr := by
    intro old inside
    have counted := balanced.refs old inside
    rw [here, Multiset.add_cons] at counted
    by_cases same : old.addr = addr
    · simp only [same, if_true, Multiset.count_cons_self] at counted ⊢
      omega
    · rw [Multiset.count_cons_of_ne same] at counted
      simp only [same, if_false]
      exact counted
  refine balanced.recount (balanced.addrs.sublist addrs) (balanced.serials.sublist serials) ?_ ?_ ?_ ?_
  · intro each member
    obtain ⟨old, inside, rfl⟩ := List.mem_map.mp (List.mem_filter.mp member).1
    exact ⟨old, inside, kept old⟩
  · intro each member
    obtain ⟨mapped, nonzero⟩ := List.mem_filter.mp member
    obtain ⟨old, inside, rfl⟩ := List.mem_map.mp mapped
    rw [(kept old).1]
    exact ⟨refs old inside, of_decide_eq_true nonzero⟩
  · intro old inside token
    refine ⟨_, List.mem_filter.mpr ⟨List.mem_map_of_mem inside, ?_⟩, (kept old).1, (kept old).2.1⟩
    rw [refs old inside]
    exact decide_eq_true (Multiset.count_ne_zero.mpr token)
  · intro token member
    refine balanced.live token (Multiset.mem_add.mpr (.inr ?_))
    rw [here]
    exact Multiset.mem_cons_of_mem member

end Steps

theorem Balanced.move {before after : Ledger} (balanced : before.Balanced) (move : Move before after) :
    after.Balanced := by
  cases move with
  | allocate free => exact balanced.allocate free
  | reserve live here room => exact balanced.reserve live here room
  | link here => exact balanced.link here
  | take live here => exact balanced.take live here
  | complete live here => exact balanced.complete live here
  | refuseFresh live here => exact balanced.refuseFresh live here
  | refuseSlot live here => exact balanced.refuseSlot live here
  | refuseListed live here => exact balanced.refuseListed live here
  | refuseDue live here => exact balanced.refuseDue live here
  | retain live => exact balanced.retain live
  | drop here => exact balanced.drop here

theorem Balanced.moves {before after : Ledger} (balanced : before.Balanced) (moves : Moves before after) :
    after.Balanced := by
  induction moves with
  | none => exact balanced
  | more _ last ih => exact ih.move last

theorem Balanced.serialAt {ledger : Ledger} {cell : Cell} (balanced : ledger.Balanced)
    (live : cell ∈ ledger.cells) : Cell.serialAt ledger.cells cell.addr = cell.serial := by
  have found : (ledger.cells.find? fun each => each.addr = cell.addr) = some cell := by
    cases result : ledger.cells.find? fun each => each.addr = cell.addr with
    | none => exact absurd (List.find?_eq_none.mp result cell live) (by simp)
    | some other =>
        have same : other.addr = cell.addr := by simpa using List.find?_some result
        rw [balanced.eq_of_addr (List.mem_of_find?_eq_some result) live same]
  rw [Cell.serialAt, found]
  rfl

theorem Balanced.takes {ledger : Ledger} {addrs : List Nat} {listed : Multiset Nat}
    (balanced : ledger.Balanced) (here : ledger.listed = ↑addrs + listed) :
    Moves ledger
      { ledger with
        listed
        due := ↑addrs + ledger.due
        count := ledger.count - addrs.length
        history := addrs.foldl
          (fun history addr => history.mark (Cell.serialAt ledger.cells addr) .released) ledger.history } := by
  induction addrs generalizing ledger with
  | nil =>
      have same : ledger.listed = listed := by simpa using here
      rw [← same]
      simp only [List.length_nil, Nat.sub_zero, List.foldl_nil, Multiset.coe_nil, Multiset.zero_add]
      exact .none ledger
  | cons addr rest ih =>
      have first : ledger.listed = addr ::ₘ (↑rest + listed) := by
        rw [here, ← Multiset.cons_coe, Multiset.cons_add]
      obtain ⟨cell, live, rfl⟩ := balanced.live addr (by simp [pending, first])
      have taken := Move.take live first
      have others := ih (balanced.move taken) rfl
      simp only [List.length_cons, List.foldl_cons, ← Multiset.cons_coe]
      rw [balanced.serialAt live]
      have order : ledger.count - (rest.length + 1) = ledger.count - 1 - rest.length := by omega
      have due : cell.addr ::ₘ (↑rest : Multiset Nat) + ledger.due = ↑rest + cell.addr ::ₘ ledger.due := by
        rw [Multiset.cons_add, Multiset.add_cons]
      rw [order, due]
      exact taken.moves.trans others

/-! ## Marks -/

def opened : List (List Mark) := [[], [.reserved], [.released, .reserved]]

theorem Balanced.opened {ledger : Ledger} {cell : Cell} (balanced : ledger.Balanced)
    (live : cell ∈ ledger.cells) (open_ : cell.addr ∈ ledger.pending) :
    ledger.history cell.serial ∈ opened := by
  rcases mem_pending.mp open_ with fresh | counted | due
  · rw [balanced.fresh cell live fresh]
    decide
  · rw [balanced.counted cell live counted]
    decide
  · rw [balanced.due cell live due]
    decide

theorem Balanced.marks {ledger : Ledger} (balanced : ledger.Balanced) (serial : Nat) :
    ledger.history serial ∈ Ledger.opened ++ ended := by
  by_cases below : serial < ledger.serials
  · rcases balanced.closed serial below with ⟨cell, live, rfl, open_⟩ | done
    · exact List.mem_append_left _ (balanced.opened live open_)
    · exact List.mem_append_right _ done
  · rw [balanced.unborn serial (Nat.le_of_not_lt below)]
    decide

theorem Balanced.completed_nodup {ledger : Ledger} (balanced : ledger.Balanced) :
    ledger.completed.Nodup := by
  have once : ∀ marks ∈ Ledger.opened ++ ended, marks.count .completed ≤ 1 := by decide
  rw [List.nodup_iff_count_le_one]
  intro serial
  rw [balanced.log serial]
  exact once _ (balanced.marks serial)

theorem Balanced.not_completed {ledger : Ledger} {serial : Nat} (balanced : ledger.Balanced)
    (refused : .refused ∈ ledger.history serial) : serial ∉ ledger.completed := by
  have either : ∀ marks ∈ Ledger.opened ++ ended, .refused ∈ marks → marks.count .completed = 0 := by decide
  rw [← List.count_eq_zero, balanced.log serial]
  exact either _ (balanced.marks serial) refused

theorem Balanced.completed_count {ledger : Ledger} {serial : Nat} (balanced : ledger.Balanced)
    (below : serial < ledger.serials) (accepted : .refused ∉ ledger.history serial) :
    ledger.completed.count serial =
      if ∃ cell ∈ ledger.cells, cell.serial = serial ∧ cell.addr ∈ ledger.pending then 0 else 1 := by
  have none : ∀ marks ∈ Ledger.opened, marks.count .completed = 0 := by decide
  have one : ∀ marks ∈ ended, .refused ∉ marks → marks.count .completed = 1 := by decide
  rw [balanced.log serial]
  split
  · rename_i open_
    obtain ⟨cell, live, rfl, pending⟩ := open_
    exact none _ (balanced.opened live pending)
  · rename_i closed
    exact one _ ((balanced.closed serial below).resolve_left closed) accepted

end Ledger

end ThunderboltVerbs.Lib
