/-
  UMqtt.Io.Pointers — the plain socket transport at its pointers
  (uMQTT/ports/src/socketio_berkeley.c).

  `UMqtt.Io.SocketIo` keeps the pending sends as a list of values. Here they are what the code
  allocates: a list item, the `PENDING_SOCKET_IO` that it points to and the bytes that this
  points to, in the memory that the rest of the program uses too, beside the instance, its list
  and its strings. Reading or freeing what is not there, and reading past the end of a block, has
  no meaning (`none`). The nodes of the list are `UMqtt.Crt.SinglyLinkedList`'s.

  `socketio_dowork` keeps its pointers to the item in front while `on_send_complete` runs, and
  frees what they point to afterwards, whatever the callback has done to the list.

  `Holds base m items`: the list is these items, each of their blocks is where they say, and
  what `base` has lies everywhere else.
-/

import UMqtt.Io.SocketIo
import UMqtt.Crt.SinglyLinkedList
import UMqtt.Lib.Memory

namespace UMqtt.Io.Pointers

open UMqtt.Lib UMqtt.Crt UMqtt.Crt.SinglyLinkedList

/-! ## What is allocated -/

inductive Object (κ : Type) where
  /-- `SOCKET_IO_INSTANCE`. -/
  | io
  /-- `LIST_INSTANCE`. -/
  | list
  /-- A host name or a MAC address. -/
  | text
  /-- `LIST_ITEM_INSTANCE`; what it holds is in the list. -/
  | node
  /-- `PENDING_SOCKET_IO`. -/
  | pending (bytes : Option Nat) (size : Nat) (onSendComplete : Option κ)
  | bytes (contents : List UInt8)

/-- `SOCKET_IO_INSTANCE`. `overwritten` is a ghost: the MAC addresses that were stored before. -/
structure Instance (κ : Type) where
  address : Nat
  pendingIoList : Nat
  hostname : Option Nat
  targetMacAddress : Option Nat
  overwritten : List Nat
  socket : Bool
  callbacks : Bool
  ioState : IoState
  events : List (SocketEvent κ)

structure Machine (κ : Type) where
  io : Instance κ
  list : ListInstance Nat Nat
  memory : Memory (Object κ)
  mallocs : Mallocs

section Code

variable {κ W : Type} (al : Allocator (Object κ))

/-- `malloc`: the outcome is the environment's, the address the allocator's. -/
def mallocObject (size : Nat) (o : Object κ) (m : Memory (Object κ)) (ms : Mallocs) :
    Option Nat × Memory (Object κ) × Mallocs :=
  match malloc size ms with
  | (none, ms) => (none, m, ms)
  | (some _, ms) =>
    match m.malloc al size o with
    | none => (none, m, ms)
    | some (a, m) => (some a, m, ms)

/-- `free`, which takes NULL. -/
def freeObject (a : Option Nat) (m : Memory (Object κ)) : Option (Memory (Object κ)) :=
  match a with
  | none => some m
  | some a => m.free a

/-! ## The pending list -/

/-- `singlylinkedlist_remove`. No walk visits more nodes than there are addresses in use. -/
def removeItem (item : Nat) (m : Machine κ) : Option (Nat × Machine κ) := do
  let r ← remove m.memory.next .valid (some item) m.list
  if r.1 = 0 then
    let memory ← m.memory.free item
    some (0, { m with list := r.2, memory := memory })
  else some (r.1, { m with list := r.2 })

def freePending (a : Nat) (m : Machine κ) : Option (Machine κ) :=
  match m.memory.block a with
  | some (.pending bytes _ _) => do
    let memory ← freeObject bytes m.memory
    let memory ← memory.free a
    some { m with memory := memory }
  | _ => none

structure Pending (κ : Type) where
  bytes : Nat
  size : Nat
  onSendComplete : Option κ
  contents : List UInt8

/-- What `send()` is given of a record: its bytes end inside their block. -/
def readPending (a : Nat) (m : Memory (Object κ)) : Option (Pending κ) :=
  match m.block a with
  | some (.pending (some bytes) size onSendComplete) =>
    match m.block bytes with
    | some (.bytes contents) => if size ≤ contents.length then some ⟨bytes, size, onSendComplete, contents⟩ else none
    | _ => none
  | _ => none

/-- `memmove` of what was not sent to the front of its block, and `size -= send_result`. -/
def keepUnsent (a : Nat) (pending : Pending κ) (sendResult : Nat) (m : Machine κ) : Machine κ :=
  let unsent := pending.size - sendResult
  let moved := (pending.contents.drop sendResult).take unsent ++ pending.contents.drop unsent
  let memory := m.memory.write pending.bytes (some (.bytes moved))
  { m with memory := memory.write a (some (.pending (some pending.bytes) unsent pending.onSendComplete)) }

def addPendingIo (buffer : List UInt8) (onSendComplete : Option κ) (m : Machine κ) : Option (Nat × Machine κ) :=
  match mallocObject al 20 (.pending none 0 none) m.memory m.mallocs with
  | (none, memory, ms) => some (failure, { m with memory := memory, mallocs := ms })
  | (some pending, memory, ms) =>
    match mallocObject al buffer.length (.bytes buffer) memory ms with
    | (none, memory, ms) => do
      let memory ← memory.free pending
      some (failure, { m with memory := memory, mallocs := ms })
    | (some bytes, memory, ms) => do
      let memory := memory.write pending (some (.pending (some bytes) buffer.length onSendComplete))
      let (answer, memory, ms) := mallocObject al 8 .node memory ms
      let r ← add .valid (some pending) answer m.list
      match r.1 with
      | none =>
        let memory ← memory.free bytes
        let memory ← memory.free pending
        some (failure, { m with list := r.2, memory := memory, mallocs := ms })
      | some _ => some (0, { m with list := r.2, memory := memory, mallocs := ms })

/-! ## Create and destroy -/

/-- What `SOCKETIO_CONFIG` names: a host, or an accepted socket that is valid or not. -/
inductive Config where
  | host (length : Nat)
  | accepted (socket : Bool)
  deriving DecidableEq, Repr

def socketioCreate (config : Config) (memory : Memory (Object κ)) (ms : Mallocs) :
    Option (Option (Instance κ) × Memory (Object κ) × Mallocs) :=
  match mallocObject al 104 .io memory ms with
  | (none, memory, ms) => some (none, memory, ms)
  | (some result, memory, ms) =>
    match mallocObject al 8 .list memory ms with
    | (none, memory, ms) => do
      let memory ← memory.free result
      some (none, memory, ms)
    | (some pendingIoList, memory, ms) =>
      let ((hostname, memory, ms), socket) := match config with
        | .host length => (mallocObject al (length + 1) .text memory ms, false)
        | .accepted socket => ((none, memory, ms), socket)
      if hostname = none ∧ socket = false then do
        let memory ← memory.free pendingIoList
        let memory ← memory.free result
        some (none, memory, ms)
      else some (some ⟨result, pendingIoList, hostname, none, [], socket, false, .closed, []⟩, memory, ms)

def clearPending : Nat → Machine κ → Option (Machine κ)
  | 0, m => if m.list.head = none then some m else none
  | fuel + 1, m =>
    match m.list.head with
    | none => some m
    | some first => do
      let cell ← m.list.items first
      let m ← freePending cell.item m
      let r ← removeItem first m
      clearPending fuel r.2

def freeNodes : Nat → Machine κ → Option (Machine κ)
  | 0, m => if m.list.head = none then some m else none
  | fuel + 1, m =>
    match m.list.head with
    | none => some m
    | some current => do
      let cell ← m.list.items current
      let list ← freeItem current { m.list with head := cell.next }
      let memory ← m.memory.free current
      freeNodes fuel { m with list := list, memory := memory }

def socketioDestroy (m : Machine κ) : Option (Memory (Object κ)) := do
  let m ← clearPending m.memory.next m
  let m ← freeNodes m.memory.next m
  let memory ← m.memory.free m.io.pendingIoList
  let memory ← freeObject m.io.hostname memory
  let memory ← freeObject m.io.targetMacAddress memory
  memory.free m.io.address

/-- `socketio_setoption` of the MAC address, for a value of this length. -/
def setTargetMacAddress (length : Nat) (m : Machine κ) : Nat × Machine κ :=
  if length = 0 then (failure, m)
  else
    let (a, memory, ms) := mallocObject al (length + 1) .text m.memory m.mallocs
    let io := { m.io with targetMacAddress := a, overwritten := m.io.overwritten ++ m.io.targetMacAddress.toList }
    (if a = none then failure else 0, { m with io := io, memory := memory, mallocs := ms })

/-! ## The calls -/

structure Callbacks (κ W : Type) where
  onIoOpenComplete : OpenResult → W → Option W
  onBytesReceived : List UInt8 → W → Option W
  onIoError : W → Option W
  onSendComplete : κ → W → Option W
  onIoCloseComplete : W → Option W

variable (s : Slot W (Machine κ)) (cb : Callbacks κ W)

def update (f : Instance κ → Instance κ) (w : W) : W := s.modify (fun m => { m with io := f m.io }) w

def indicateError (w : W) : Option W := if (s.get w).io.callbacks then cb.onIoError w else some w

def socketioOpen (connects : Bool) (w : W) : Option (Nat × W) :=
  let opened : Instance κ → Instance κ := fun io => { io with socket := true, callbacks := true, ioState := .opened }
  let r : Nat × W :=
    if (s.get w).io.ioState ≠ .closed then (failure, w)
    else if (s.get w).io.socket then (0, update s opened w)
    else if connects then (0, update s opened w)
    else (failure, w)
  (cb.onIoOpenComplete (if r.1 = 0 then .ok else .error) r.2).map fun w => (r.1, w)

def socketioClose (callback : Bool) (w : W) : Option (Nat × W) :=
  let io := (s.get w).io
  let w := if io.ioState ≠ .closed ∧ io.ioState ≠ .closing then
    update s (fun io => { io with socket := false, ioState := .closed }) w else w
  (if callback then cb.onIoCloseComplete w else some w).map fun w => (0, w)

def sendCompleted (onSendComplete : Option κ) (w : W) : Option W :=
  match onSendComplete with
  | none => some w
  | some k => cb.onSendComplete k (update s (fun io => { io with events := io.events ++ [.complete k] }) w)

def accept (bytes : List UInt8) (w : W) : W :=
  update s (fun io => { io with events := io.events ++ [.accepted bytes] }) w

def queue (buffer : List UInt8) (onSendComplete : Option κ) (w : W) : Option (Nat × W) :=
  (addPendingIo al buffer onSendComplete (s.get w)).map fun r => (r.1, s.set r.2 w)

def socketioSend (buffer : List UInt8) (onSendComplete : Option κ) (answer : SendAnswer) (w : W) : Option (Nat × W) :=
  if buffer.length = 0 then some (failure, w)
  else if (s.get w).io.ioState ≠ .opened then some (failure, w)
  else match (s.get w).list.head with
  | some _ => queue al s buffer onSendComplete w
  | none =>
    match answer with
    | .again => some (0, w)
    | .fatal => some (failure, w)
    | .accepted sendResult =>
      if sendResult < buffer.length then
        queue al s (buffer.drop sendResult) onSendComplete (accept s (buffer.take sendResult) w)
      else (sendCompleted s cb onSendComplete (accept s buffer w)).map fun w => (0, w)

/-- The `while` of `socketio_dowork` over the pending list. `first` and the record are read
    before the callback and used behind it. -/
def flush : List SendAnswer → W → Option W
  | [], w => some w
  | answer :: answers, w =>
    match (s.get w).list.head with
    | none => some w
    | some first => do
      let cell ← (s.get w).list.items first
      let pending ← readPending cell.item (s.get w).memory
      match answer with
      | .again => some w
      | .fatal =>
        let m ← freePending cell.item (s.get w)
        let r ← removeItem first m
        let w ← indicateError s cb (update s (fun io => { io with ioState := .error }) (s.set r.2 w))
        flush answers w
      | .accepted sendResult =>
        if sendResult < pending.size then
          some (s.modify (keepUnsent cell.item pending sendResult) (accept s (pending.contents.take sendResult) w))
        else
          let w ← sendCompleted s cb pending.onSendComplete (accept s (pending.contents.take pending.size) w)
          let m ← freePending cell.item (s.get w)
          let r ← removeItem first m
          let w := s.set r.2 w
          let failed := if r.1 ≠ 0 then indicateError s cb (update s (fun io => { io with ioState := .error }) w) else some w
          let w ← failed
          flush answers w

def receive : List RecvAnswer → W → Option W
  | [], w => some w
  | .again :: _, w => some w
  | .failed :: _, w => indicateError s cb w
  | .bytes received :: answers, w =>
    if received = [] then some w
    else do
      let told := if (s.get w).io.callbacks then cb.onBytesReceived received w else some w
      let w ← told
      if (s.get w).io.ioState = .opened then receive answers w else some w

def socketioDowork (answers : List SendAnswer) (received : List RecvAnswer) (w : W) : Option W := do
  let w ← flush s cb answers w
  if (s.get w).io.ioState = .opened then receive s cb received w else some w

end Code

/-! ## What the list and the memory hold -/

structure Item (κ : Type) where
  node : Nat
  record : Nat
  bytes : Nat
  contents : List UInt8
  size : Nat
  onSendComplete : Option κ

section Specs

variable {κ : Type}

/-- What `UMqtt.Io.SocketIo` keeps of it. -/
def Item.shown (it : Item κ) : PendingSocketIo κ := ⟨it.contents.take it.size, it.onSendComplete⟩

def Item.places (it : Item κ) : List Nat := [it.node, it.record, it.bytes]

def places (items : List (Item κ)) : List Nat := items.flatMap Item.places

def nodes (items : List (Item κ)) : List (Nat × Nat) := items.map fun it => (it.node, it.record)

/-- Its blocks are there, and its bytes inside theirs. -/
structure Item.At (it : Item κ) (block : Nat → Option (Object κ)) : Prop where
  node : block it.node = some .node
  record : block it.record = some (.pending (some it.bytes) it.size it.onSendComplete)
  bytes : block it.bytes = some (.bytes it.contents)
  size : it.size ≤ it.contents.length

structure Holds (base : Nat → Option (Object κ)) (m : Machine κ) (items : List (Item κ)) : Prop where
  queue : IsQueue m.list (nodes items)
  each : ∀ it ∈ items, it.At m.memory.block
  distinct : (places items).Nodup
  outside : ∀ a ∈ places items, base a = none
  rest : ∀ a, a ∉ places items → m.memory.block a = base a

@[simp] theorem places_cons (it : Item κ) (items : List (Item κ)) : places (it :: items) = it.places ++ places items := rfl

@[simp] theorem places_append (items items' : List (Item κ)) : places (items ++ items') = places items ++ places items' :=
  List.flatMap_append

@[simp] theorem addresses_nodes (items : List (Item κ)) : addresses (nodes items) = items.map Item.node := by
  simp [addresses, nodes, Function.comp_def]

theorem Item.At.congr {it : Item κ} {block block' : Nat → Option (Object κ)} (h : it.At block)
    (hb : ∀ a ∈ it.places, block' a = block a) : it.At block' where
  node := (hb _ (by simp [Item.places])).trans h.node
  record := (hb _ (by simp [Item.places])).trans h.record
  bytes := (hb _ (by simp [Item.places])).trans h.bytes
  size := h.size

/-! ### The memory -/

variable {al : Allocator (Object κ)} {base : Nat → Option (Object κ)} {m : Machine κ} {it : Item κ} {items : List (Item κ)}

theorem write_block (m : Memory (Object κ)) (a : Nat) (o : Option (Object κ)) :
    (m.write a o).block = Function.update m.block a o := rfl

/-- An allocation gets nothing, or an address where nothing is. -/
theorem mallocObject_cases (hal : al.Succeeds) (size : Nat) (o : Object κ) (m : Memory (Object κ)) (ms : Mallocs) :
    (∃ ms', malloc size ms = (none, ms') ∧ mallocObject al size o m ms = (none, m, ms')) ∨
      ∃ block ms' a, malloc size ms = (some block, ms') ∧ m.block a = none ∧
        mallocObject al size o m ms = (some a, m.write a (some o), ms') := by
  unfold mallocObject
  rcases hm : malloc size ms with ⟨_ | block, ms'⟩
  · exact Or.inl ⟨ms', rfl, rfl⟩
  · obtain ⟨a, ha⟩ := Option.ne_none_iff_exists'.mp (hal m size)
    refine Or.inr ⟨block, ms', a, rfl, al.unused m size a ha, ?_⟩
    simp only [Memory.malloc, ha, Option.map_some]

theorem Holds.of_block {m' : Machine κ} (h : Holds base m items) (hl : m'.list = m.list)
    (hb : m'.memory.block = m.memory.block) : Holds base m' items where
  queue := hl ▸ h.queue
  each := hb ▸ h.each
  distinct := h.distinct
  outside := h.outside
  rest := hb ▸ h.rest

/-- An address where nothing is belongs to nobody. -/
theorem Holds.unused (h : Holds base m items) {a : Nat} (ha : m.memory.block a = none) :
    a ∉ places items ∧ base a = none := by
  have hp : a ∉ places items := by
    intro hm
    obtain ⟨it, hit, hm⟩ := List.mem_flatMap.mp hm
    have hat := h.each it hit
    simp only [Item.places, List.mem_cons, List.not_mem_nil, or_false] at hm
    rcases hm with rfl | rfl | rfl
    · rw [hat.node] at ha; cases ha
    · rw [hat.record] at ha; cases ha
    · rw [hat.bytes] at ha; cases ha
  exact ⟨hp, (h.rest a hp).symm.trans ha⟩

/-! ### The item in front -/

/-- The head of the list, what it points to and what that points to. -/
theorem Holds.front (h : Holds base m (it :: items)) : m.list.head = some it.node ∧
    (∃ next, m.list.items it.node = some ⟨it.record, next⟩) ∧
    readPending it.record m.memory = some ⟨it.bytes, it.size, it.onSendComplete, it.contents⟩ := by
  have hat := h.each it List.mem_cons_self
  have hq : IsQueue m.list ([] ++ (it.node, it.record) :: nodes items) := h.queue
  refine ⟨h.queue.chain.first, ⟨_, hq.read⟩, ?_⟩
  simp only [readPending, hat.record, hat.bytes, if_pos hat.size]

theorem Holds.head_none (h : Holds base m []) : m.list.head = none := h.queue.chain.first

theorem Holds.used_lt {a : Nat} (h : m.memory.block a ≠ none) : a < m.memory.next := by
  by_contra hn
  exact h (m.memory.unused a (by omega))

/-- Every item has an address of its own. -/
theorem Holds.length_le (h : Holds base m items) : items.length ≤ m.memory.next := by
  have hn : (items.map Item.node).Nodup := by
    rw [← addresses_nodes]
    exact h.queue.chain.nodup
  have hs : items.map Item.node ⊆ List.range m.memory.next := by
    intro a ha
    obtain ⟨it, hit, rfl⟩ := List.mem_map.mp ha
    rw [List.mem_range]
    apply Holds.used_lt
    rw [(h.each it hit).node]
    simp
  have hl := (List.subperm_of_subset hn hs).length_le
  rwa [List.length_map, List.length_range] at hl

/-- The blocks of an item are its own. -/
theorem Holds.apart (h : Holds base m (it :: items)) :
    it.node ≠ it.record ∧ it.node ≠ it.bytes ∧ it.record ≠ it.bytes ∧ ∀ a ∈ it.places, a ∉ places items := by
  have hd := h.distinct
  rw [places_cons, List.nodup_append] at hd
  obtain ⟨hi, -, hr⟩ := hd
  simp only [Item.places, List.nodup_cons, List.mem_cons, List.not_mem_nil, or_false, not_or] at hi
  exact ⟨hi.1.1, hi.1.2, hi.2.1, fun a ha ha' => hr a ha a ha' rfl⟩

/-- Nothing is left of the item in front. -/
theorem Holds.drop_front {m' : Machine κ} (h : Holds base m (it :: items)) (hq : IsQueue m'.list (nodes items))
    (hb : ∀ a, m'.memory.block a = if a ∈ it.places then none else m.memory.block a) : Holds base m' items where
  queue := hq
  each it' hit := by
    apply (h.each it' (List.mem_cons_of_mem _ hit)).congr
    intro a ha
    have hm : a ∈ places items := List.mem_flatMap.mpr ⟨it', hit, ha⟩
    rw [hb, if_neg fun hf => h.apart.2.2.2 a hf hm]
  distinct := (List.nodup_append.mp h.distinct).2.1
  outside a ha := h.outside a (List.mem_append_right _ ha)
  rest a ha := by
    rw [hb]
    split
    · exact (h.outside a (List.mem_append_left _ ‹_›)).symm
    · apply h.rest
      rw [places_cons, List.mem_append]
      tauto

/-- The item in front is freed and taken out of the list. -/
theorem Holds.retire (h : Holds base m (it :: items)) : ∃ m₁ m', freePending it.record m = some m₁ ∧
    removeItem it.node m₁ = some (0, m') ∧ m'.io = m.io ∧ m'.mallocs = m.mallocs ∧ Holds base m' items := by
  obtain ⟨hnr, hnb, hrb, -⟩ := h.apart
  have hat := h.each it List.mem_cons_self
  let memory := (m.memory.write it.bytes none).write it.record none
  have hqueue : IsQueue m.list ([] ++ nodes (it :: items)) := h.queue
  have hfuel : (nodes (it :: items)).length ≤ memory.next := by
    have hle := h.length_le
    simp only [nodes, List.length_map, memory, Memory.write]
    omega
  obtain ⟨list, hl, hq, -⟩ := removeLoop_spec it.node hqueue hfuel
  have hin : it.node ∈ addresses (nodes (it :: items)) := by simp
  have hne : ∀ x ∈ nodes items, x.1 ≠ it.node := by
    intro x hx he
    obtain ⟨it', hit, rfl⟩ := List.mem_map.mp hx
    exact h.apart.2.2.2 it.node (by simp [Item.places])
      (List.mem_flatMap.mpr ⟨it', hit, by rw [← he]; simp [Item.places]⟩)
  have hfilter : (nodes (it :: items)).filter (fun x => decide (x.1 ≠ it.node)) = nodes items := by
    rw [nodes, List.map_cons, List.filter_cons_of_neg (by simp)]
    exact List.filter_eq_self.mpr fun x hx => decide_eq_true (hne x hx)
  rw [if_pos hin, ← h.queue.chain.first] at hl
  rw [List.nil_append, hfilter] at hq
  refine ⟨{ m with memory := memory }, { m with list := list, memory := memory.write it.node none }, ?_, ?_, rfl, rfl, ?_⟩
  · simp only [freePending, hat.record, freeObject]
    rw [Memory.free_spec (by rw [hat.bytes]; simp)]
    simp only [Option.bind_eq_bind, Option.bind_some]
    rw [Memory.free_spec (by rw [Memory.write_ne hrb, hat.record]; simp)]
    rfl
  · have hnode : memory.block it.node ≠ none := by
      rw [Memory.write_ne hnr, Memory.write_ne hnb, hat.node]
      simp
    have hr : remove memory.next .valid (some it.node) m.list = some (0, list) := hl
    simp only [removeItem, hr, Option.bind_eq_bind, Option.bind_some, if_true, Memory.free_spec hnode]
  · apply h.drop_front hq
    intro a
    simp only [memory, write_block, Item.places, List.mem_cons, List.not_mem_nil, or_false, Function.update_apply]
    by_cases h1 : a = it.node
    · simp [h1]
    · by_cases h2 : a = it.record
      · simp [h2]
      · by_cases h3 : a = it.bytes <;> simp [h1, h2, h3]

/-- What a partial send leaves is in front, in the same place. -/
theorem Holds.keepUnsent (h : Holds base m (it :: items)) {n : Nat} (hn : n < it.size) :
    ∃ it', it'.node = it.node ∧ it'.shown = ⟨it.shown.bytes.drop n, it.onSendComplete⟩ ∧
      Holds base (keepUnsent it.record ⟨it.bytes, it.size, it.onSendComplete, it.contents⟩ n m) (it' :: items) := by
  obtain ⟨hnr, hnb, hrb, hout⟩ := h.apart
  have hat := h.each it List.mem_cons_self
  have hsize := hat.size
  let moved := (it.contents.drop n).take (it.size - n) ++ it.contents.drop (it.size - n)
  have hfront : ((it.contents.drop n).take (it.size - n)).length = it.size - n := by
    rw [List.length_take, List.length_drop]
    omega
  refine ⟨⟨it.node, it.record, it.bytes, moved, it.size - n, it.onSendComplete⟩, rfl, ?_, h.queue, ?_, h.distinct,
    h.outside, ?_⟩
  · simp only [Item.shown, moved]
    rw [List.take_left' hfront, List.drop_take]
  · intro it' hit
    rcases List.mem_cons.mp hit with rfl | hit
    · refine ⟨?_, Memory.write_self, ?_, ?_⟩
      · simp only [Pointers.keepUnsent]
        rw [Memory.write_ne hnr, Memory.write_ne hnb, hat.node]
      · simp only [Pointers.keepUnsent]
        rw [Memory.write_ne hrb.symm, Memory.write_self]
      · simp only [moved, List.length_append, hfront]
        omega
    · apply (h.each it' (List.mem_cons_of_mem _ hit)).congr
      intro a ha
      have hm : a ∈ places items := List.mem_flatMap.mpr ⟨it', hit, ha⟩
      have h1 : a ≠ it.record := fun he => hout it.record (by simp [Item.places]) (he ▸ hm)
      have h2 : a ≠ it.bytes := fun he => hout it.bytes (by simp [Item.places]) (he ▸ hm)
      simp only [Pointers.keepUnsent]
      rw [Memory.write_ne h1, Memory.write_ne h2]
  · intro a ha
    have hm : a ∉ it.places := fun hm => ha (List.mem_append_left _ hm)
    simp only [Item.places, List.mem_cons, List.not_mem_nil, or_false, not_or] at hm
    simp only [Pointers.keepUnsent]
    rw [Memory.write_ne hm.2.1, Memory.write_ne hm.2.2]
    exact h.rest a ha

/-! ### An item behind the others -/

/-- Freed again, a block was never there. -/
theorem update_freed {f : Nat → Option (Object κ)} {a : Nat} (h : f a = none) (o : Option (Object κ)) :
    Function.update (Function.update f a o) a none = f := by
  rw [Function.update_idem, ← h, Function.update_eq_self]

/-- So it is of two blocks, freed in turn. -/
theorem free_both {m m' : Memory (Object κ)} {a b : Nat} (hba : b ≠ a) (ha : m.block a = none) (hb : m.block b = none)
    (ha' : m'.block a ≠ none) (hb' : m'.block b ≠ none) (hm : ∀ c, c ≠ a → c ≠ b → m'.block c = m.block c) :
    ∃ m₁ m₂, m'.free b = some m₁ ∧ m₁.free a = some m₂ ∧ m₂.block = m.block := by
  refine ⟨m'.write b none, (m'.write b none).write a none, Memory.free_spec hb', Memory.free_spec ?_, ?_⟩
  · rwa [Memory.write_ne hba.symm]
  · funext c
    simp only [write_block, Function.update_apply]
    by_cases h1 : c = a
    · rw [if_pos h1, h1, ha]
    · by_cases h2 : c = b
      · rw [if_neg h1, if_pos h2, h2, hb]
      · rw [if_neg h1, if_neg h2, hm c h1 h2]

/-- Three blocks that were in no use, and the list with one node more. -/
theorem Holds.append {m' : Machine κ} (h : Holds base m items) (hq : IsQueue m'.list (nodes (items ++ [it])))
    (hat : it.At m'.memory.block) (hnew : ∀ a ∈ it.places, m.memory.block a = none) (hd : it.places.Nodup)
    (hb : ∀ a, a ∉ it.places → m'.memory.block a = m.memory.block a) : Holds base m' (items ++ [it]) := by
  have hapart : ∀ a ∈ places items, a ∉ it.places := fun a ha hm => (h.unused (hnew a hm)).1 ha
  have hone : places [it] = it.places := List.append_nil _
  refine ⟨hq, ?_, ?_, ?_, ?_⟩
  · intro it' hit
    rcases List.mem_append.mp hit with hit | hit
    · apply (h.each it' hit).congr
      intro a ha
      exact hb a (hapart a (List.mem_flatMap.mpr ⟨it', hit, ha⟩))
    · rw [List.mem_singleton.mp hit]
      exact hat
  · rw [places_append, hone, List.nodup_append]
    exact ⟨h.distinct, hd, fun a ha b hb he => hapart a ha (he ▸ hb)⟩
  · intro a ha
    rw [places_append, hone, List.mem_append] at ha
    rcases ha with ha | ha
    · exact h.outside a ha
    · exact (h.unused (hnew a ha)).2
  · intro a ha
    rw [places_append, hone, List.mem_append, not_or] at ha
    rw [hb a ha.2]
    exact h.rest a ha.1

/-- `add_pending_io` returns and queues what the list model's does, and leaks nothing when it fails. -/
theorem Holds.addPendingIo (h : Holds base m items) (hal : al.Succeeds) (buffer : List UInt8) (onSendComplete : Option κ)
    {io : SocketIoInstance κ} (hio : io.pendingIoList = items.map Item.shown) :
    ∃ m' more, Pointers.addPendingIo al buffer onSendComplete m =
        some ((Io.addPendingIo io buffer onSendComplete m.mallocs).1, m') ∧
      m'.io = m.io ∧ m'.mallocs = (Io.addPendingIo io buffer onSendComplete m.mallocs).2.2 ∧
      Holds base m' (items ++ more) ∧ (Io.addPendingIo io buffer onSendComplete m.mallocs).2.1 =
        { io with pendingIoList := (items ++ more).map Item.shown } := by
  have hsame : io = { io with pendingIoList := (items ++ []).map Item.shown } := by
    rw [List.append_nil, ← hio]
  unfold Pointers.addPendingIo Io.addPendingIo
  rcases mallocObject_cases hal 20 (.pending none 0 none) m.memory m.mallocs with
    ⟨ms₁, hm₁, ho₁⟩ | ⟨_, ms₁, p, hm₁, hp, ho₁⟩
  · simp only [hm₁, ho₁]
    exact ⟨_, [], rfl, rfl, rfl, by rw [List.append_nil]; exact h.of_block rfl rfl, hsame⟩
  simp only [hm₁, ho₁]
  rcases mallocObject_cases hal buffer.length (.bytes buffer) (m.memory.write p (some (.pending none 0 none))) ms₁ with
    ⟨ms₂, hm₂, ho₂⟩ | ⟨_, ms₂, b, hm₂, hb, ho₂⟩
  · -- the record is freed again
    simp only [hm₂, ho₂]
    rw [Memory.free_spec (by rw [Memory.write_self]; simp)]
    refine ⟨_, [], rfl, rfl, rfl, ?_, hsame⟩
    rw [List.append_nil]
    exact h.of_block rfl (update_freed hp _)
  simp only [hm₂, ho₂]
  have hbp : b ≠ p := by
    rintro rfl
    rw [Memory.write_self] at hb
    cases hb
  rw [Memory.write_ne hbp] at hb
  have hwrite : ∃ memory, memory = ((m.memory.write p (some (.pending none 0 none))).write b (some (.bytes buffer))).write p
      (some (.pending (some b) buffer.length onSendComplete)) := ⟨_, rfl⟩
  obtain ⟨written, hw⟩ := hwrite
  rw [← hw]
  have hwp : written.block p = some (.pending (some b) buffer.length onSendComplete) := by rw [hw, Memory.write_self]
  have hwb : written.block b = some (.bytes buffer) := by rw [hw, Memory.write_ne hbp, Memory.write_self]
  have hwa : ∀ a, a ≠ p → a ≠ b → written.block a = m.memory.block a := by
    intro a h1 h2
    rw [hw, Memory.write_ne h1, Memory.write_ne h2, Memory.write_ne h1]
  rcases mallocObject_cases hal 8 .node written ms₂ with ⟨ms₃, hm₃, ho₃⟩ | ⟨_, ms₃, n, hm₃, hn, ho₃⟩
  · -- both are
    obtain ⟨m₁, m₂, hfree, hfree', hblock⟩ := free_both hbp hp hb (by rw [hwp]; simp) (by rw [hwb]; simp) hwa
    have hadd : add .valid (some p) none m.list = some (none, m.list) := rfl
    simp only [hm₃, ho₃, hadd, Option.bind_eq_bind, Option.bind_some, hfree, hfree']
    refine ⟨_, [], rfl, rfl, rfl, ?_, hsame⟩
    rw [List.append_nil]
    exact h.of_block rfl hblock
  · have hnp : n ≠ p := by
      rintro rfl
      rw [hwp] at hn
      cases hn
    have hnb : n ≠ b := by
      rintro rfl
      rw [hwb] at hn
      cases hn
    rw [hwa n hnp hnb] at hn
    have hnew : n ∉ addresses (nodes items) := by
      intro hm
      rw [addresses_nodes] at hm
      obtain ⟨it, hit, rfl⟩ := List.mem_map.mp hm
      rw [(h.each it hit).node] at hn
      cases hn
    obtain ⟨list, hadd, hq⟩ := add_spec h.queue hnew p
    simp only [hm₃, ho₃, hadd, Option.bind_eq_bind, Option.bind_some]
    let it : Item κ := ⟨n, p, b, buffer, buffer.length, onSendComplete⟩
    refine ⟨_, [it], rfl, rfl, rfl, ?_, ?_⟩
    · refine Holds.append h ?_ (?_ : it.At _) ?_ ?_ ?_
      · rw [nodes, List.map_append]
        exact hq
      · constructor
        · exact Memory.write_self
        · exact (Memory.write_ne hnp.symm).trans hwp
        · exact (Memory.write_ne hnb.symm).trans hwb
        · exact le_refl _
      · intro a ha
        simp only [it, Item.places, List.mem_cons, List.not_mem_nil, or_false] at ha
        rcases ha with rfl | rfl | rfl
        · exact hn
        · exact hp
        · exact hb
      · simp only [it, Item.places, List.nodup_cons, List.mem_cons, List.not_mem_nil, or_false, not_or, not_false_eq_true,
          List.nodup_nil, and_true]
        exact ⟨⟨hnp, hnb⟩, hbp.symm⟩
      · intro a ha
        simp only [it, Item.places, List.mem_cons, List.not_mem_nil, or_false, not_or] at ha
        exact (Memory.write_ne ha.1).trans (hwa a ha.2.1 ha.2.2)
    · rw [hio, List.map_append]
      simp [it, Item.shown]

/-! ### The instance -/

def texts (io : Instance κ) : List Nat := io.hostname.toList ++ io.targetMacAddress.toList ++ io.overwritten

def owned (io : Instance κ) : List Nat := io.address :: io.pendingIoList :: texts io

/-- The blocks of the instance, among those of others. -/
structure Owns (outside : Nat → Option (Object κ)) (io : Instance κ) (base : Nat → Option (Object κ)) : Prop where
  distinct : (owned io).Nodup
  free : ∀ a ∈ owned io, outside a = none
  self : base io.address = some .io
  list : base io.pendingIoList = some .list
  text : ∀ a ∈ texts io, base a = some .text
  rest : ∀ a, a ∉ owned io → base a = outside a

variable {outside : Nat → Option (Object κ)} {io : Instance κ}

theorem Owns.of_perm {io' : Instance κ} (h : Owns outside io base) (ha : io'.address = io.address)
    (hl : io'.pendingIoList = io.pendingIoList) (ht : (texts io').Perm (texts io)) : Owns outside io' base := by
  have hp : (owned io').Perm (owned io) := by
    rw [owned, owned, ha, hl]
    exact (ht.cons _).cons _
  exact ⟨hp.nodup_iff.mpr h.distinct, fun a hm => h.free a (hp.mem_iff.mp hm), ha ▸ h.self, hl ▸ h.list,
    fun a hm => h.text a (ht.mem_iff.mp hm), fun a hm => h.rest a fun hm' => hm (hp.mem_iff.mpr hm')⟩

/-- A string more. -/
theorem Owns.more {io' : Instance κ} {a : Nat} (h : Owns outside io base) (hb : base a = none)
    (ha : io'.address = io.address) (hl : io'.pendingIoList = io.pendingIoList) (ht : (texts io').Perm (a :: texts io)) :
    Owns outside io' (Function.update base a (some .text)) := by
  have hne : ∀ b ∈ owned io, b ≠ a := by
    rintro b hm rfl
    simp only [owned, List.mem_cons] at hm
    rcases hm with rfl | rfl | hm
    · rw [h.self] at hb; cases hb
    · rw [h.list] at hb; cases hb
    · rw [h.text b hm] at hb; cases hb
  have hp : (owned io').Perm (a :: owned io) := by
    rw [owned, owned, ha, hl]
    exact (((ht.cons _).trans (List.Perm.swap ..)).cons _).trans (List.Perm.swap ..)
  have hna : a ∉ owned io := fun hm => hne a hm rfl
  refine ⟨?_, ?_, ?_, ?_, ?_, ?_⟩
  · rw [hp.nodup_iff, List.nodup_cons]
    exact ⟨hna, h.distinct⟩
  · intro b hm
    rcases List.mem_cons.mp (hp.mem_iff.mp hm) with rfl | hm
    · exact (h.rest b hna).symm.trans hb
    · exact h.free b hm
  · rw [ha, Function.update_of_ne (hne _ (by simp [owned]))]
    exact h.self
  · rw [hl, Function.update_of_ne (hne _ (by simp [owned]))]
    exact h.list
  · intro b hm
    rcases List.mem_cons.mp (ht.mem_iff.mp hm) with rfl | hm
    · exact Function.update_self ..
    · rw [Function.update_of_ne (hne b (by simp [owned, hm]))]
      exact h.text b hm
  · intro b hm
    have hb' : b ∉ a :: owned io := fun hm' => hm (hp.mem_iff.mpr hm')
    rw [List.mem_cons, not_or] at hb'
    rw [Function.update_of_ne hb'.1]
    exact h.rest b hb'.2

theorem Holds.more {m' : Machine κ} {a : Nat} {o : Option (Object κ)} (h : Holds base m items)
    (ha : m.memory.block a = none) (hl : m'.list = m.list) (hb : m'.memory.block = Function.update m.memory.block a o) :
    Holds (Function.update base a o) m' items := by
  obtain ⟨hp, -⟩ := h.unused ha
  have hne : ∀ b ∈ places items, b ≠ a := fun b hm he => hp (he ▸ hm)
  refine ⟨hl ▸ h.queue, ?_, h.distinct, ?_, ?_⟩
  · intro it hit
    apply (h.each it hit).congr
    intro b hm
    rw [hb, Function.update_of_ne (hne b (List.mem_flatMap.mpr ⟨it, hit, hm⟩))]
  · intro b hm
    rw [Function.update_of_ne (hne b hm)]
    exact h.outside b hm
  · intro b hm
    rw [hb]
    by_cases he : b = a
    · rw [he, Function.update_self, Function.update_self]
    · rw [Function.update_of_ne he, Function.update_of_ne he]
      exact h.rest b hm

/-- A MAC address is stored, and the one before it is kept nowhere. -/
theorem Holds.setTargetMacAddress (h : Holds base m items) (ho : Owns outside m.io base) (hal : al.Succeeds) (length : Nat) :
    ∃ base', Holds base' (setTargetMacAddress al length m).2 items ∧
      Owns outside (setTargetMacAddress al length m).2.io base' := by
  unfold Pointers.setTargetMacAddress
  by_cases h0 : length = 0
  · rw [if_pos h0]
    exact ⟨base, h, ho⟩
  rw [if_neg h0]
  have hperm : ∀ a : List Nat, (m.io.hostname.toList ++ a ++ (m.io.overwritten ++ m.io.targetMacAddress.toList)).Perm
      (a ++ texts m.io) := by
    intro a
    have h1 : (m.io.hostname.toList ++ a).Perm (a ++ m.io.hostname.toList) := List.perm_append_comm
    have h2 : (m.io.overwritten ++ m.io.targetMacAddress.toList).Perm (m.io.targetMacAddress.toList ++ m.io.overwritten) :=
      List.perm_append_comm
    have h3 := h1.append h2
    simpa only [texts, List.append_assoc] using h3
  rcases mallocObject_cases hal (length + 1) .text m.memory m.mallocs with ⟨ms, -, hm⟩ | ⟨_, ms, a, -, ha, hm⟩
  · simp only [hm]
    refine ⟨base, ?_, ho.of_perm rfl rfl (hperm [])⟩
    exact h.of_block rfl rfl
  · simp only [hm]
    refine ⟨Function.update base a (some .text), ?_, ho.more (h.unused ha).2 rfl rfl (hperm [a])⟩
    exact h.more ha rfl rfl

/-- What `socketio_create` leaves: nothing more than before, or an instance of its own. -/
theorem socketioCreate_spec (hal : al.Succeeds) (config : Config) (memory : Memory (Object κ)) (ms : Mallocs) :
    ∃ r, socketioCreate al config memory ms = some r ∧
      (r.1 = none → r.2.1.block = memory.block) ∧
      ∀ io, r.1 = some io → Holds r.2.1.block ⟨io, create, r.2.1, r.2.2⟩ [] ∧ Owns memory.block io r.2.1.block ∧
        io.socket = decide (config = .accepted true) ∧ io.callbacks = false ∧ io.ioState = .closed ∧ io.events = [] ∧
          io.overwritten = [] := by
  unfold socketioCreate
  rcases mallocObject_cases hal 104 .io memory ms with ⟨ms₁, -, h₁⟩ | ⟨_, ms₁, a, -, ha, h₁⟩
  · simp only [h₁]
    exact ⟨_, rfl, fun _ => rfl, fun io h => nomatch h⟩
  simp only [h₁]
  rcases mallocObject_cases hal 8 .list (memory.write a (some .io)) ms₁ with ⟨ms₂, -, h₂⟩ | ⟨_, ms₂, l, -, hl, h₂⟩
  · simp only [h₂]
    rw [Memory.free_spec (by rw [Memory.write_self]; simp)]
    exact ⟨_, rfl, fun _ => update_freed ha _, fun io h => nomatch h⟩
  simp only [h₂]
  have hla : l ≠ a := by
    rintro rfl
    rw [Memory.write_self] at hl
    cases hl
  rw [Memory.write_ne hla] at hl
  obtain ⟨both, hb⟩ : ∃ m, m = (memory.write a (some .io)).write l (some .list) := ⟨_, rfl⟩
  rw [← hb]
  have hba : both.block a = some .io := by rw [hb, Memory.write_ne hla.symm, Memory.write_self]
  have hbl : both.block l = some .list := by rw [hb, Memory.write_self]
  have hrest : ∀ b, b ≠ a → b ≠ l → both.block b = memory.block b := by
    intro b h1 h2
    rw [hb, Memory.write_ne h2, Memory.write_ne h1]
  have hnull : ∀ ms : Mallocs, ∃ m, (do
      let memory ← both.free l
      let memory ← memory.free a
      some ((none : Option (Instance κ)), memory, ms)) = some (none, m, ms) ∧ m.block = memory.block := by
    intro ms
    obtain ⟨m₁, m₂, hfree, hfree', hblock⟩ := free_both hla ha hl (by rw [hba]; simp) (by rw [hbl]; simp) hrest
    exact ⟨m₂, by simp only [hfree, hfree', Option.bind_eq_bind, Option.bind_some], hblock⟩
  have hholds : ∀ (io : Instance κ) (m : Memory (Object κ)) (ms : Mallocs), Holds m.block ⟨io, create, m, ms⟩ [] :=
    fun io m ms => ⟨create_isQueue, fun _ h => (List.not_mem_nil h).elim, List.nodup_nil,
      fun _ h => (List.not_mem_nil h).elim, fun _ _ => rfl⟩
  have howns : ∀ socket, Owns memory.block ⟨a, l, none, none, [], socket, false, .closed, []⟩ both.block := by
    intro socket
    have hmem : ∀ b, b ∈ owned (⟨a, l, none, none, [], socket, false, .closed, []⟩ : Instance κ) ↔ b = a ∨ b = l := by
      intro b
      simp [owned, texts]
    refine ⟨by simp [owned, texts, hla.symm], ?_, hba, hbl, by simp [texts], ?_⟩
    · intro b hm
      rcases (hmem b).mp hm with rfl | rfl
      · exact ha
      · exact hl
    · intro b hm
      rw [hmem, not_or] at hm
      exact hrest b hm.1 hm.2
  cases config with
  | accepted socket =>
    cases socket with
    | false =>
      obtain ⟨m, hm, hmb⟩ := hnull ms₂
      exact ⟨_, hm, fun _ => hmb, fun io h => nomatch h⟩
    | true =>
      refine ⟨_, rfl, fun h => (nomatch h), ?_⟩
      rintro io ⟨⟩
      exact ⟨hholds _ _ _, howns true, by simp, rfl, rfl, rfl, rfl⟩
  | host length =>
    rcases mallocObject_cases hal (length + 1) .text both ms₂ with ⟨ms₃, -, h₃⟩ | ⟨_, ms₃, n, -, hn, h₃⟩
    · obtain ⟨m, hm, hmb⟩ := hnull ms₃
      simp only [h₃]
      exact ⟨_, hm, fun _ => hmb, fun io h => nomatch h⟩
    · simp only [h₃]
      refine ⟨_, rfl, fun h => (nomatch h), ?_⟩
      rintro io ⟨⟩
      refine ⟨hholds _ _ _, ?_, by simp, rfl, rfl, rfl, rfl⟩
      exact (howns false).more hn rfl rfl (List.Perm.refl _)

theorem clearPending_spec {fuel : Nat} (h : Holds base m items) (hf : items.length ≤ fuel) :
    ∃ m', clearPending fuel m = some m' ∧ Holds base m' [] ∧ m'.io = m.io := by
  induction items generalizing m fuel with
  | nil =>
    refine ⟨m, ?_, h, rfl⟩
    cases fuel with
    | zero => simp only [clearPending, h.head_none, if_true]
    | succ fuel => simp only [clearPending, h.head_none]
  | cons it items ih =>
    obtain ⟨fuel, rfl⟩ : ∃ n, fuel = n + 1 := ⟨fuel - 1, by simp only [List.length_cons] at hf; omega⟩
    obtain ⟨hhead, ⟨next, hcell⟩, -⟩ := h.front
    obtain ⟨m₁, m₂, hfree, hremove, hio, -, h₂⟩ := h.retire
    obtain ⟨m', hm, h', hio'⟩ := ih h₂ (by simpa using hf)
    refine ⟨m', ?_, h', hio'.trans hio⟩
    simp only [clearPending, hhead, hcell, hfree, hremove, Option.bind_eq_bind, Option.bind_some, hm]

theorem freeObject_eq (a : Option Nat) (m : Memory (Object κ)) : freeObject a m = m.freeAll a.toList := by
  cases a with
  | none => rfl
  | some a => simp [freeObject, Memory.freeAll]

/-- `socketio_destroy` frees what the instance has, but for the MAC addresses that were overwritten. -/
theorem socketioDestroy_spec (h : Holds base m items) (ho : Owns outside m.io base) :
    ∃ memory, socketioDestroy m = some memory ∧
      ∀ a, memory.block a = if a ∈ m.io.overwritten then some .text else outside a := by
  obtain ⟨m₁, h₁, hc, hio⟩ := clearPending_spec h h.length_le
  have hn : freeNodes m₁.memory.next m₁ = some m₁ := by
    cases hf : m₁.memory.next with
    | zero => simp only [freeNodes, hc.head_none, if_true]
    | succ n => simp only [freeNodes, hc.head_none]
  let freed := [m.io.pendingIoList] ++ m.io.hostname.toList ++ m.io.targetMacAddress.toList ++ [m.io.address]
  have hp : (freed ++ m.io.overwritten).Perm (owned m.io) := by
    simp only [freed, owned, texts, List.cons_append, List.append_assoc, List.nil_append]
    let strings := m.io.hostname.toList ++ m.io.targetMacAddress.toList
    have hmid : (strings ++ m.io.address :: m.io.overwritten).Perm (m.io.address :: (strings ++ m.io.overwritten)) :=
      List.perm_middle
    simp only [strings, List.append_assoc] at hmid
    exact (hmid.cons _).trans (List.Perm.swap ..)
  have hd := hp.nodup_iff.mpr ho.distinct
  have hblock : m₁.memory.block = base := funext fun a => hc.rest a List.not_mem_nil
  have hthere : ∀ a ∈ owned m.io, base a ≠ none := by
    intro a hm
    simp only [owned, List.mem_cons] at hm
    rcases hm with rfl | rfl | hm
    · rw [ho.self]; simp
    · rw [ho.list]; simp
    · rw [ho.text a hm]; simp
  have hfreed : ∀ a ∈ freed, m₁.memory.block a ≠ none := by
    intro a ha
    rw [hblock]
    exact hthere a (hp.mem_iff.mp (List.mem_append_left _ ha))
  obtain ⟨memory, hm, hb⟩ := Memory.freeAll_spec (List.nodup_append.mp hd).1 hfreed
  refine ⟨memory, ?_, ?_⟩
  · rw [← hm]
    simp only [socketioDestroy, h₁, hn, hio, freeObject_eq, Option.bind_eq_bind, Option.bind_some, freed,
      Memory.freeAll_append, Option.bind_assoc]
    simp [Memory.freeAll]
  · intro a
    rw [hb, hblock]
    by_cases hf : a ∈ freed
    · rw [if_pos hf, if_neg fun ho' => (List.nodup_append.mp hd).2.2 a hf a ho' rfl]
      exact (ho.free a (hp.mem_iff.mp (List.mem_append_left _ hf))).symm
    · rw [if_neg hf]
      by_cases hov : a ∈ m.io.overwritten
      · rw [if_pos hov]
        exact ho.text a (List.mem_append_right _ hov)
      · rw [if_neg hov]
        apply ho.rest
        rw [← hp.mem_iff, List.mem_append]
        tauto

end Specs

end UMqtt.Io.Pointers
