import McpSdk.Lib.Pool
import McpSdk.Lib.Run
import Mathlib.Data.List.Nodup
import Mathlib.Logic.Function.Basic
/-!
# Connections — the descriptors of the HTTP listener

The accept loop, the connection threads and `stop` share `conn_fds_`, a list of numbers that the kernel gives out again
once they are closed, to the accept loop or to the rest of the process.  A connection is the number's owner from its
accept to its close, and every call of the endpoint on a number reaches the owner it means (`sound_of_run`).

There is one call of `stop`: another one finds `running_` cleared and returns.
-/
namespace Mcp
namespace Connections

/-! ## The kernel's table -/

abbrev Fd := Nat

/-- What an open number stands for: the `k`-th accepted connection, the listening socket, or a file of somebody else. -/
inductive Owner where
  | conn (k : Nat)
  | listener
  | other
  deriving DecidableEq

inductive Call where
  | shutdown
  | close
  deriving DecidableEq

/-- Whom a call means: the connection whose number it was given, whatever stands in `conn_fds_`, the listening socket. -/
inductive Aim where
  | own (k : Nat)
  | listed
  | listener

/-- A call of `shutdown_fd` or `close_fd`, and what the number stood for. -/
structure Entry where
  call : Call
  aim : Aim
  hit : Option Owner

/-- The call reached what it means. -/
def Entry.Fair (e : Entry) : Prop :=
  match e.aim with
  | .own k => e.hit = some (.conn k)
  | .listed => ∃ k, e.hit = some (.conn k)
  | .listener => e.hit = some .listener

def Entry.closes (k : Nat) (e : Entry) : Bool := e.call = .close && e.hit = some (.conn k)

/-- Where an accepted connection is: in the accept loop's hand, in `handle_connection` up to its `shutdown_fd`, before the
last section, closed. -/
inductive Place where
  | accepted
  | serving
  | closing
  | closed
  deriving DecidableEq

/-- `fd` is the number `tcp_accept` returned. -/
structure Conn where
  fd : Fd
  place : Place

/-- Its thread has not run the last section. -/
def Conn.threaded (c : Conn) : Bool :=
  match c.place with
  | .serving | .closing => true
  | _ => false

structure Descriptors where
  table : Fd → Option Owner
  conns : List Conn := []
  connFds : List Fd := []
  log : List Entry := []

namespace Descriptors

def shutdownFd (d : Descriptors) (aim : Aim) (fd : Fd) : Descriptors :=
  { d with log := d.log ++ [⟨.shutdown, aim, d.table fd⟩] }

def closeFd (d : Descriptors) (aim : Aim) (fd : Fd) : Descriptors :=
  { d with table := Function.update d.table fd none, log := d.log ++ [⟨.close, aim, d.table fd⟩] }

/-- `tcp_accept` gives a number that is not in use. -/
def accept (d : Descriptors) (fd : Fd) : Descriptors :=
  { d with
    table := Function.update d.table fd (some (.conn d.conns.length))
    conns := d.conns ++ [⟨fd, .accepted⟩] }

def move (d : Descriptors) (k : Nat) (c : Conn) (place : Place) : Descriptors :=
  { d with conns := d.conns.set k { c with place } }

end Descriptors

/-! ## The parties -/

inductive AcceptPc where
  /-- At the test of the loop, at `poll_readable`, at `tcp_accept`. -/
  | looping
  | polling
  | accepting
  /-- At `conn_mutex_`. -/
  | registering (k : Nat)
  | returned
  deriving DecidableEq

inductive StopPc where
  | idle
  | shuttingListener
  | sweeping
  | joiningAccept
  | swapping
  | joining (threads : List Nat)
  | closingRest
  | closingListener
  | returned

structure State where
  files : Descriptors
  listenFd : Fd
  running : Bool := true
  connThreads : List Nat := []
  accept : AcceptPc := .looping
  stop : StopPc := .idle

/-- A step of the accept loop; `ready` is what `poll_readable` says, `fd` what `tcp_accept` gives. -/
def acceptLoop (s : State) (ready : Bool) (fd : Option Fd) : Option State :=
  match s.accept with
  | .looping => some { s with accept := if s.running then .polling else .returned }
  | .polling => some { s with accept := if ready && s.running then .accepting else .returned }
  | .accepting =>
    match fd with
    | none => some { s with accept := .looping }
    | some fd =>
      if s.files.table fd = none then
        some { s with files := s.files.accept fd, accept := .registering s.files.conns.length }
      else none
  | .registering k =>
    (s.files.conns[k]?).map fun c =>
      if s.running then
        { s with
          files := { s.files.move k c .serving with connFds := s.files.connFds ++ [c.fd] }
          connThreads := s.connThreads ++ [k]
          accept := .looping }
      else { s with files := (s.files.closeFd (.own k) c.fd).move k c .closed, accept := .returned }
  | .returned => none

/-- The end of `handle_connection`: `shutdown_fd`, then the section that closes what it finds. -/
def thread (s : State) (k : Nat) : Option State :=
  (s.files.conns[k]?).bind fun c =>
    match c.place with
    | .serving => some { s with files := (s.files.shutdownFd (.own k) c.fd).move k c .closing }
    | .closing =>
      if c.fd ∈ s.files.connFds then
        some { s with files :=
          { (s.files.closeFd (.own k) c.fd).move k c .closed with connFds := s.files.connFds.erase c.fd } }
      else some { s with files := s.files.move k c .closed }
    | _ => none

/-- The threads that can be joined have run their last section. -/
def finished (s : State) (k : Nat) : Bool := (s.files.conns[k]?).all (fun c => c.place = .closed)

def stop (s : State) : Option State :=
  match s.stop with
  | .idle => some { s with running := false, stop := .shuttingListener }
  | .shuttingListener => some { s with files := s.files.shutdownFd .listener s.listenFd, stop := .sweeping }
  | .sweeping =>
    some { s with files := s.files.connFds.foldl (fun d fd => d.shutdownFd .listed fd) s.files, stop := .joiningAccept }
  | .joiningAccept => if s.accept = .returned then some { s with stop := .swapping } else none
  | .swapping => some { s with connThreads := [], stop := .joining s.connThreads }
  | .joining threads => if threads.all (finished s) then some { s with stop := .closingRest } else none
  | .closingRest =>
    some { s with
      files := { s.files.connFds.foldl (fun d fd => d.closeFd .listed fd) s.files with connFds := [] }
      stop := .closingListener }
  | .closingListener => some { s with files := s.files.closeFd .listener s.listenFd, stop := .returned }
  | .returned => none

inductive Label where
  | acceptLoop (ready : Bool) (fd : Option Fd)
  | thread (k : Nat)
  | stop
  /-- The rest of the process opens and closes its files. -/
  | openOther (fd : Fd)
  | closeOther (fd : Fd)

def step (s : State) : Label → Option State
  | .acceptLoop ready fd => acceptLoop s ready fd
  | .thread k => thread s k
  | .stop => stop s
  | .openOther fd =>
    if s.files.table fd = none then
      some { s with files := { s.files with table := Function.update s.files.table fd (some .other) } }
    else none
  | .closeOther fd =>
    if s.files.table fd = some .other then
      some { s with files := { s.files with table := Function.update s.files.table fd none } }
    else none

/-- After `start`, with the numbers the rest of the process has open. -/
def init (listenFd : Fd) (others : Fd → Bool) : State :=
  { files := { table := fun fd => if fd = listenFd then some .listener else if others fd then some .other else none }
    listenFd }

/-! ## The property -/

/-- **Every number is used and closed by its owner.** -/
structure Sound (s : State) : Prop where
  nodup : s.files.connFds.Nodup
  /-- What is listed is what is open, but for the connection on its way to the list. -/
  exact : ∀ fd, fd ∈ s.files.connFds ↔ ∃ k, s.files.table fd = some (.conn k) ∧ s.accept ≠ .registering k
  /-- An accepted connection is open and was never closed, or it was closed once. -/
  once : ∀ k < s.files.conns.length,
    (∃ fd, s.files.table fd = some (.conn k)) ∧ s.files.log.countP (Entry.closes k) = 0 ∨
      (∀ fd, s.files.table fd ≠ some (.conn k)) ∧ s.files.log.countP (Entry.closes k) = 1
  /-- No call reaches a closed number or somebody else's. -/
  fair : ∀ e ∈ s.files.log, e.Fair
  stopped : s.stop = .returned → ∀ fd k, s.files.table fd ≠ some (.conn k)

/-! ## The descriptors -/

structure Owned (d : Descriptors) : Prop where
  owner : ∀ fd k, d.table fd = some (.conn k) ↔ ∃ c, d.conns[k]? = some c ∧ c.fd = fd ∧ c.place ≠ .closed
  nodup : d.connFds.Nodup
  listed : ∀ fd, fd ∈ d.connFds ↔ ∃ (k : Nat) (c : Conn), d.conns[k]? = some c ∧ c.fd = fd ∧ c.threaded = true
  closes : ∀ k, d.log.countP (Entry.closes k) = ((d.conns[k]?).any (fun c => c.place = .closed)).toNat
  fair : ∀ e ∈ d.log, e.Fair

theorem Conn.threaded_iff {c : Conn} : c.threaded = true ↔ c.place ≠ .accepted ∧ c.place ≠ .closed := by
  unfold threaded
  cases c.place <;> simp

theorem Conn.open_of_threaded {c : Conn} (h : c.threaded = true) : c.place ≠ .closed := (threaded_iff.1 h).2

namespace Owned

variable {d : Descriptors} {k j : Nat} {c x : Conn}

theorem hit (hd : Owned d) (hk : d.conns[k]? = some c) (hopen : c.place ≠ .closed) : d.table c.fd = some (.conn k) :=
  (hd.owner c.fd k).2 ⟨c, hk, rfl, hopen⟩

/-- **Two open connections have two numbers.** -/
theorem eq_of_fd (hd : Owned d) (hk : d.conns[k]? = some c) (hj : d.conns[j]? = some x) (hc : c.place ≠ .closed)
    (hx : x.place ≠ .closed) (hfd : c.fd = x.fd) : k = j := by
  have hown := hd.hit hk hc
  rw [hfd, hd.hit hj hx] at hown
  cases hown
  rfl

/-- An accepted connection that waits for its thread is not listed. -/
theorem unlisted (hd : Owned d) (hk : d.conns[k]? = some c) (hc : c.place = .accepted) : c.fd ∉ d.connFds := by
  intro hmem
  obtain ⟨j, x, hj, hfd, hthreaded⟩ := (hd.listed c.fd).1 hmem
  obtain rfl := hd.eq_of_fd hj hk (Conn.open_of_threaded hthreaded) (by rw [hc]; nofun) hfd
  rw [hk] at hj
  cases hj
  exact (Conn.threaded_iff.1 hthreaded).1 hc

/-- A change of the table that is about no connection. -/
theorem foreign (hd : Owned d) {fd : Fd} {owner : Option Owner} (hold : ∀ k, d.table fd ≠ some (.conn k))
    (hnew : ∀ k, owner ≠ some (.conn k)) : Owned { d with table := Function.update d.table fd owner } := by
  refine ⟨fun other k => ?_, hd.nodup, hd.listed, hd.closes, hd.fair⟩
  rw [← hd.owner other k]
  show Function.update d.table fd owner other = some (.conn k) ↔ _
  by_cases heq : other = fd
  · rw [heq, Function.update_self]
    exact iff_of_false (hnew k) (hold k)
  · rw [Function.update_of_ne heq]

/-- A call that closes nothing of the connections. -/
theorem logged (hd : Owned d) {e : Entry} (hfair : e.Fair) (hcloses : ∀ k, e.closes k = false) :
    Owned { d with log := d.log ++ [e] } := by
  refine ⟨hd.owner, hd.nodup, hd.listed, fun k => ?_, Pool.forall_append_singleton hd.fair hfair⟩
  show (d.log ++ [e]).countP (Entry.closes k) = _
  rw [List.countP_append, List.countP_singleton, hcloses k, if_neg Bool.false_ne_true, Nat.add_zero, hd.closes k]

theorem accept (hd : Owned d) {fd : Fd} (hfree : d.table fd = none) : Owned (d.accept fd) := by
  have hnone : ∀ {k : Nat} {c : Conn}, d.conns[k]? = some c → c.fd = fd → c.place = .closed := by
    intro k c hk hfd
    by_contra hopen
    have hown := hd.hit hk hopen
    rw [hfd, hfree] at hown
    cases hown
  refine ⟨fun other k => ?_, hd.nodup, fun other => ?_, fun k => ?_, hd.fair⟩
  · show Function.update d.table fd (some (.conn d.conns.length)) other = some (.conn k) ↔
      ∃ c, (d.conns ++ [⟨fd, .accepted⟩])[k]? = some c ∧ c.fd = other ∧ c.place ≠ .closed
    by_cases heq : other = fd
    · rw [heq, Function.update_self]
      constructor
      · intro h
        cases h
        exact ⟨_, Pool.getElem?_concat_eq_some.2 (.inl ⟨rfl, rfl⟩), rfl, nofun⟩
      · rintro ⟨c, hc, hfd, hopen⟩
        rcases Pool.getElem?_concat_eq_some.1 hc with ⟨rfl, -⟩ | hold
        · rfl
        · exact absurd (hnone hold hfd) hopen
    · rw [Function.update_of_ne heq, hd.owner]
      constructor
      · rintro ⟨c, hc, hrest⟩
        exact ⟨c, Pool.getElem?_concat_eq_some.2 (.inr hc), hrest⟩
      · rintro ⟨c, hc, hfd, hopen⟩
        rcases Pool.getElem?_concat_eq_some.1 hc with ⟨-, rfl⟩ | hold
        · exact absurd hfd.symm heq
        · exact ⟨c, hold, hfd, hopen⟩
  · rw [show (d.accept fd).connFds = d.connFds from rfl, hd.listed]
    constructor
    · rintro ⟨k, c, hc, hrest⟩
      exact ⟨k, c, Pool.getElem?_concat_eq_some.2 (.inr hc), hrest⟩
    · rintro ⟨k, c, hc, hfd, hthreaded⟩
      rcases Pool.getElem?_concat_eq_some.1 hc with ⟨-, rfl⟩ | hold
      · cases hthreaded
      · exact ⟨k, c, hold, hfd, hthreaded⟩
  · show d.log.countP (Entry.closes k) =
      (((d.conns ++ [⟨fd, .accepted⟩])[k]?).any fun c => decide (c.place = .closed)).toNat
    rw [hd.closes k]
    rcases Nat.lt_trichotomy k d.conns.length with hk | rfl | hk
    · rw [List.getElem?_append_left hk]
    · rw [List.getElem?_concat_length, List.getElem?_eq_none (Nat.le_refl _)]
      rfl
    · rw [List.getElem?_eq_none (Nat.le_of_lt hk),
        List.getElem?_eq_none (by rw [List.length_append, List.length_singleton]; omega)]

/-- A connection moves and stays open. -/
theorem owner_move (hd : Owned d) (hk : d.conns[k]? = some c) (hopen : c.place ≠ .closed) {place : Place}
    (hplace : place ≠ .closed) (fd : Fd) (j : Nat) :
    d.table fd = some (.conn j) ↔
      ∃ x, (d.conns.set k { c with place })[j]? = some x ∧ x.fd = fd ∧ x.place ≠ .closed := by
  obtain ⟨hlt, -⟩ := List.getElem?_eq_some_iff.1 hk
  rw [hd.owner]
  constructor
  · rintro ⟨x, hx, hfd, hxopen⟩
    by_cases hj : j = k
    · rw [hj, hk] at hx
      cases hx
      exact ⟨_, (Pool.getElem?_set_eq_some hlt).2 (.inl ⟨hj, rfl⟩), hfd, hplace⟩
    · exact ⟨x, (Pool.getElem?_set_eq_some hlt).2 (.inr ⟨hj, hx⟩), hfd, hxopen⟩
  · rintro ⟨x, hx, hfd, hxopen⟩
    rcases Pool.getElem?_set_cases hx with ⟨rfl, rfl⟩ | ⟨-, hx⟩
    · exact ⟨c, hk, hfd, hopen⟩
    · exact ⟨x, hx, hfd, hxopen⟩

theorem closes_move (hd : Owned d) (hk : d.conns[k]? = some c) (hopen : c.place ≠ .closed) {place : Place}
    (hplace : place ≠ .closed) (j : Nat) : d.log.countP (Entry.closes j) =
      (((d.conns.set k { c with place })[j]?).any fun x => decide (x.place = .closed)).toNat := by
  obtain ⟨hlt, -⟩ := List.getElem?_eq_some_iff.1 hk
  rw [hd.closes j]
  by_cases hj : k = j
  · subst hj
    rw [hk, List.getElem?_set_self hlt, Option.any_some, Option.any_some, decide_eq_false hopen, decide_eq_false hplace]
  · rw [List.getElem?_set_ne hj]

theorem register (hd : Owned d) (hk : d.conns[k]? = some c) (hc : c.place = .accepted) :
    Owned { d.move k c .serving with connFds := d.connFds ++ [c.fd] } := by
  have hopen : c.place ≠ .closed := by
    rw [hc]
    nofun
  obtain ⟨hlt, -⟩ := List.getElem?_eq_some_iff.1 hk
  have hfresh := hd.unlisted hk hc
  refine ⟨hd.owner_move hk hopen nofun, ?_, fun fd => ?_, hd.closes_move hk hopen nofun, hd.fair⟩
  · exact List.nodup_append.2 ⟨hd.nodup, List.nodup_singleton _, fun a ha b hb heq =>
      hfresh (by rw [← List.mem_singleton.1 hb, ← heq]; exact ha)⟩
  · show fd ∈ d.connFds ++ [c.fd] ↔ ∃ (j : Nat) (x : Conn), (d.conns.set k { c with place := .serving })[j]? = some x ∧ _
    rw [List.mem_append, List.mem_singleton, hd.listed]
    constructor
    · rintro (⟨j, x, hj, hrest⟩ | rfl)
      · refine ⟨j, x, (Pool.getElem?_set_eq_some hlt).2 (.inr ⟨?_, hj⟩), hrest⟩
        rintro rfl
        rw [hk] at hj
        cases hj
        exact (Conn.threaded_iff.1 hrest.2).1 hc
      · exact ⟨k, _, (Pool.getElem?_set_eq_some hlt).2 (.inl ⟨rfl, rfl⟩), rfl, rfl⟩
    · rintro ⟨j, x, hj, hfd, hthreaded⟩
      rcases Pool.getElem?_set_cases hj with ⟨rfl, rfl⟩ | ⟨-, hj⟩
      · exact .inr hfd.symm
      · exact .inl ⟨j, x, hj, hfd, hthreaded⟩

/-- The end of the service. -/
theorem leave (hd : Owned d) (hk : d.conns[k]? = some c) (hc : c.place = .serving) :
    Owned ((d.shutdownFd (.own k) c.fd).move k c .closing) := by
  have hopen : c.place ≠ .closed := by
    rw [hc]
    nofun
  obtain ⟨hlt, -⟩ := List.getElem?_eq_some_iff.1 hk
  have hlogged : Owned (d.shutdownFd (.own k) c.fd) := hd.logged (hd.hit hk hopen) fun _ => rfl
  refine ⟨hlogged.owner_move hk hopen nofun, hd.nodup, fun fd => ?_, hlogged.closes_move hk hopen nofun, hlogged.fair⟩
  show fd ∈ d.connFds ↔ ∃ (j : Nat) (x : Conn), (d.conns.set k { c with place := .closing })[j]? = some x ∧ _
  rw [hd.listed]
  constructor
  · rintro ⟨j, x, hj, hfd, hthreaded⟩
    by_cases heq : j = k
    · rw [heq, hk] at hj
      cases hj
      exact ⟨k, _, (Pool.getElem?_set_eq_some hlt).2 (.inl ⟨rfl, rfl⟩), hfd, rfl⟩
    · exact ⟨j, x, (Pool.getElem?_set_eq_some hlt).2 (.inr ⟨heq, hj⟩), hfd, hthreaded⟩
  · rintro ⟨j, x, hj, hfd, hthreaded⟩
    rcases Pool.getElem?_set_cases hj with ⟨rfl, rfl⟩ | ⟨-, hj⟩
    · refine ⟨j, c, hk, hfd, ?_⟩
      unfold Conn.threaded
      rw [hc]
    · exact ⟨j, x, hj, hfd, hthreaded⟩

/-- **A connection is closed**, and leaves the list if it is there. -/
theorem close (hd : Owned d) (hk : d.conns[k]? = some c) (hopen : c.place ≠ .closed) :
    Owned { (d.closeFd (.own k) c.fd).move k c .closed with connFds := d.connFds.erase c.fd } := by
  obtain ⟨hlt, -⟩ := List.getElem?_eq_some_iff.1 hk
  have hhit := hd.hit hk hopen
  refine ⟨fun fd j => ?_, hd.nodup.erase c.fd, fun fd => ?_, fun j => ?_, Pool.forall_append_singleton hd.fair hhit⟩
  · show Function.update d.table c.fd none fd = some (.conn j) ↔
      ∃ x, (d.conns.set k { c with place := .closed })[j]? = some x ∧ x.fd = fd ∧ x.place ≠ .closed
    by_cases heq : fd = c.fd
    · rw [heq, Function.update_self]
      refine iff_of_false nofun ?_
      rintro ⟨x, hx, hfd, hxopen⟩
      rcases Pool.getElem?_set_cases hx with ⟨-, rfl⟩ | ⟨hj, hx⟩
      · exact hxopen rfl
      · exact hj (hd.eq_of_fd hx hk hxopen hopen hfd)
    · rw [Function.update_of_ne heq, hd.owner]
      constructor
      · rintro ⟨x, hx, hfd, hxopen⟩
        refine ⟨x, (Pool.getElem?_set_eq_some hlt).2 (.inr ⟨?_, hx⟩), hfd, hxopen⟩
        rintro rfl
        rw [hk] at hx
        cases hx
        exact heq hfd.symm
      · rintro ⟨x, hx, hfd, hxopen⟩
        rcases Pool.getElem?_set_cases hx with ⟨-, rfl⟩ | ⟨-, hx⟩
        · exact absurd rfl hxopen
        · exact ⟨x, hx, hfd, hxopen⟩
  · show fd ∈ d.connFds.erase c.fd ↔ ∃ (j : Nat) (x : Conn), (d.conns.set k { c with place := .closed })[j]? = some x ∧ _
    rw [hd.nodup.mem_erase_iff, hd.listed]
    constructor
    · rintro ⟨hne, j, x, hj, hfd, hthreaded⟩
      refine ⟨j, x, (Pool.getElem?_set_eq_some hlt).2 (.inr ⟨?_, hj⟩), hfd, hthreaded⟩
      rintro rfl
      rw [hk] at hj
      cases hj
      exact hne hfd.symm
    · rintro ⟨j, x, hj, hfd, hthreaded⟩
      rcases Pool.getElem?_set_cases hj with ⟨-, rfl⟩ | ⟨hne, hj⟩
      · cases hthreaded
      · refine ⟨fun heq => ?_, j, x, hj, hfd, hthreaded⟩
        exact hne (hd.eq_of_fd hj hk (Conn.open_of_threaded hthreaded) hopen (hfd.trans heq))
  · show (d.log ++ [(⟨.close, .own k, d.table c.fd⟩ : Entry)]).countP (Entry.closes j) =
      (((d.conns.set k { c with place := .closed })[j]?).any fun x => decide (x.place = .closed)).toNat
    rw [List.countP_append, List.countP_singleton, hd.closes j, hhit]
    by_cases hj : k = j
    · subst hj
      rw [hk, List.getElem?_set_self hlt, Option.any_some, Option.any_some, decide_eq_false hopen]
      simp [Entry.closes]
    · rw [List.getElem?_set_ne hj]
      simp [Entry.closes, hj]

/-- `stop` shuts down what is listed. -/
theorem sweep : ∀ {fds : List Fd} {d : Descriptors}, Owned d → (∀ fd ∈ fds, fd ∈ d.connFds) →
    Owned (fds.foldl (fun d fd => d.shutdownFd .listed fd) d)
  | [], _, hd, _ => hd
  | fd :: fds, d, hd, hall => by
    obtain ⟨hfd, hrest⟩ := List.forall_mem_cons.1 hall
    obtain ⟨k, c, hk, rfl, hthreaded⟩ := (hd.listed fd).1 hfd
    have hstep : Owned (d.shutdownFd .listed c.fd) :=
      hd.logged ⟨k, hd.hit hk (Conn.open_of_threaded hthreaded)⟩ fun _ => rfl
    rw [List.foldl_cons]
    exact sweep hstep hrest

theorem foldl_shutdownFd : ∀ (fds : List Fd) (d : Descriptors), fds.foldl (fun d fd => d.shutdownFd .listed fd) d =
    { d with log := d.log ++ fds.map (fun fd => ⟨.shutdown, .listed, d.table fd⟩) }
  | [], d => by simp
  | fd :: fds, d => by
    rw [List.foldl_cons, foldl_shutdownFd fds]
    simp [Descriptors.shutdownFd]

/-- With no thread left there is nothing listed. -/
theorem connFds_eq_nil (hd : Owned d) (hnone : ∀ (k : Nat) (c : Conn), d.conns[k]? = some c → c.threaded = false) :
    d.connFds = [] := by
  rw [List.eq_nil_iff_forall_not_mem]
  intro fd hmem
  obtain ⟨k, c, hk, -, hthreaded⟩ := (hd.listed fd).1 hmem
  rw [hnone k c hk] at hthreaded
  cases hthreaded

end Owned

/-! ## The parties agree -/

/-- The threads `stop` has still to join, `conn_threads_` before the swap. -/
def StopPc.unjoined (pc : StopPc) (connThreads : List Nat) : List Nat :=
  match pc with
  | idle | shuttingListener | sweeping | joiningAccept | swapping => connThreads
  | joining threads => threads
  | closingRest | closingListener | returned => []

/-- `accept_thread_.join()` has returned. -/
def StopPc.acceptJoined : StopPc → Bool
  | idle | shuttingListener | sweeping | joiningAccept => false
  | _ => true

structure Inv (s : State) : Prop where
  owned : Owned s.files
  pending : ∀ (k : Nat) (c : Conn), s.files.conns[k]? = some c → (c.place = .accepted ↔ s.accept = .registering k)
  unborn : ∀ k, s.accept = .registering k → k < s.files.conns.length
  unjoined : ∀ (k : Nat) (c : Conn), s.files.conns[k]? = some c → c.threaded = true → k ∈ s.stop.unjoined s.connThreads
  returned : s.stop.acceptJoined = true → s.accept = .returned
  listener : s.stop ≠ .returned → s.files.table s.listenFd = some .listener

theorem inv_init (listenFd : Fd) (others : Fd → Bool) : Inv (init listenFd others) := by
  have hnone : ∀ fd k, (init listenFd others).files.table fd ≠ some (.conn k) := by
    intro fd k
    show (if fd = listenFd then some Owner.listener else if others fd then some .other else none) ≠ some (.conn k)
    split
    · nofun
    split <;> nofun
  refine ⟨⟨fun fd k => iff_of_false (hnone fd k) ?_, List.nodup_nil, fun fd => ?_, fun _ => rfl, List.forall_mem_nil _⟩,
    nofun, nofun, nofun, nofun, fun _ => if_pos rfl⟩
  · rintro ⟨c, hc, -⟩
    cases hc
  · refine iff_of_false List.not_mem_nil ?_
    rintro ⟨k, c, hc, -⟩
    cases hc

namespace Inv

variable {s t : State}

/-- The place of one connection changes, and the accept loop may move on. -/
theorem placed (hs : Inv s) {k : Nat} {c : Conn} (hk : s.files.conns[k]? = some c) {place : Place} {pc : AcceptPc}
    (hplace : place ≠ .accepted) (hpc : ∀ j, pc = .registering j ↔ j ≠ k ∧ s.accept = .registering j) :
    ∀ (j : Nat) (x : Conn), (s.files.conns.set k { c with place })[j]? = some x →
      (x.place = .accepted ↔ pc = .registering j) := by
  intro j x hj
  rcases Pool.getElem?_set_cases hj with ⟨rfl, rfl⟩ | ⟨hne, hj⟩
  · exact iff_of_false hplace fun h => ((hpc j).1 h).1 rfl
  · rw [hs.pending j x hj, hpc j]
    exact ⟨fun h => ⟨hne, h⟩, fun h => h.2⟩

theorem not_joined (hs : Inv s) (hlive : s.accept ≠ .returned) : s.stop.acceptJoined = false := by
  cases hjoined : s.stop.acceptJoined with
  | false => rfl
  | true => exact absurd (hs.returned hjoined) hlive

/-- A number of a connection is not the listener's. -/
theorem listener_ne (hs : Inv s) {k : Nat} {c : Conn} (hk : s.files.conns[k]? = some c) (hopen : c.place ≠ .closed)
    (hstop : s.stop ≠ .returned) : s.listenFd ≠ c.fd := by
  intro heq
  have hhit := hs.owned.hit hk hopen
  rw [← heq, hs.listener hstop] at hhit
  cases hhit

/-- The accept loop moves with nothing in its hand. -/
theorem moveAccept (hs : Inv s) (hold : ∀ k, s.accept ≠ .registering k) (hlive : s.accept ≠ .returned) {pc : AcceptPc}
    (hnew : ∀ k, pc ≠ .registering k) : Inv { s with accept := pc } := by
  refine ⟨hs.owned, fun k c hk => ?_, fun k h => absurd h (hnew k), hs.unjoined, fun hjoined => ?_, hs.listener⟩
  · rw [hs.pending k c hk]
    exact iff_of_false (hold k) (hnew k)
  · rw [show s.stop.acceptJoined = false from hs.not_joined hlive] at hjoined
    cases hjoined

theorem accepted (hs : Inv s) (haccept : s.accept = .accepting) {fd : Fd} (hfree : s.files.table fd = none) :
    Inv { s with files := s.files.accept fd, accept := .registering s.files.conns.length } := by
  have hjoined := hs.not_joined (by rw [haccept]; nofun)
  refine ⟨hs.owned.accept hfree, fun k c hk => ?_, fun k h => ?_, fun k c hk hthreaded => ?_, fun h => ?_, fun hstop => ?_⟩
  · rcases Pool.getElem?_concat_eq_some.1 hk with ⟨rfl, rfl⟩ | hk
    · exact iff_of_true rfl rfl
    · obtain ⟨hlt, -⟩ := List.getElem?_eq_some_iff.1 hk
      rw [hs.pending k c hk, haccept]
      refine iff_of_false nofun fun h => ?_
      cases h
      exact Nat.lt_irrefl _ hlt
  · cases h
    show s.files.conns.length < (s.files.conns ++ [_]).length
    rw [List.length_append, List.length_singleton]
    exact Nat.lt_succ_self _
  · rcases Pool.getElem?_concat_eq_some.1 hk with ⟨-, rfl⟩ | hk
    · cases hthreaded
    · exact hs.unjoined k c hk hthreaded
  · rw [show s.stop.acceptJoined = false from hjoined] at h
    cases h
  · have hlistener := hs.listener hstop
    have hne : s.listenFd ≠ fd := by
      intro heq
      rw [heq, hfree] at hlistener
      cases hlistener
    show Function.update s.files.table fd _ s.listenFd = _
    rw [Function.update_of_ne hne]
    exact hlistener

theorem registered (hs : Inv s) {k : Nat} {c : Conn} (haccept : s.accept = .registering k)
    (hk : s.files.conns[k]? = some c) :
    Inv { s with
      files := { s.files.move k c .serving with connFds := s.files.connFds ++ [c.fd] }
      connThreads := s.connThreads ++ [k]
      accept := .looping } := by
  have hjoined := hs.not_joined (by rw [haccept]; nofun)
  have hc := (hs.pending k c hk).2 haccept
  have hmem : ∀ {l : List Nat}, s.stop.unjoined l = l := by
    intro l
    unfold StopPc.unjoined
    unfold StopPc.acceptJoined at hjoined
    split <;> rename_i hstop <;> rw [hstop] at hjoined <;> first | rfl | cases hjoined
  refine ⟨hs.owned.register hk hc, hs.placed hk nofun fun j => ?_, nofun, ?_, fun h => ?_, hs.listener⟩
  · rw [haccept]
    refine iff_of_false nofun ?_
    rintro ⟨hne, h⟩
    cases h
    exact hne rfl
  · refine Pool.forall_getElem?_set hs.unjoined (fun j x _ hold hthreaded => ?_) fun _ => ?_
    · have hold := hold hthreaded
      rw [hmem] at hold ⊢
      exact List.mem_append_left _ hold
    · rw [hmem]
      exact List.mem_append_right _ List.mem_cons_self
  · rw [show s.stop.acceptJoined = false from hjoined] at h
    cases h

/-- A connection is closed by whoever has it in hand. -/
theorem closed (hs : Inv s) {k : Nat} {c : Conn} (hk : s.files.conns[k]? = some c) (hopen : c.place ≠ .closed)
    {pc : AcceptPc} (hpc : ∀ j, pc = .registering j ↔ j ≠ k ∧ s.accept = .registering j)
    (hreturned : s.accept = .returned → pc = .returned) :
    Inv { s with
      files := { (s.files.closeFd (.own k) c.fd).move k c .closed with connFds := s.files.connFds.erase c.fd }
      accept := pc } := by
  refine ⟨hs.owned.close hk hopen, hs.placed hk nofun hpc, fun j h => ?_, ?_, fun h => hreturned (hs.returned h),
    fun hstop => ?_⟩
  · show j < (s.files.conns.set k _).length
    rw [List.length_set]
    exact hs.unborn j ((hpc j).1 h).2
  · exact Pool.forall_getElem?_set hs.unjoined (fun _ _ _ hold => hold) nofun
  · show Function.update s.files.table c.fd none s.listenFd = _
    rw [Function.update_of_ne (hs.listener_ne hk hopen hstop)]
    exact hs.listener hstop

theorem acceptLoop {ready : Bool} {fd : Option Fd} (hs : Inv s) (h : Connections.acceptLoop s ready fd = some t) : Inv t := by
  unfold Connections.acceptLoop at h
  cases haccept : s.accept with
  | looping =>
    rw [haccept] at h
    obtain rfl := Option.some.inj h
    refine hs.moveAccept (by rw [haccept]; nofun) (by rw [haccept]; nofun) fun k => ?_
    split <;> nofun
  | polling =>
    rw [haccept] at h
    obtain rfl := Option.some.inj h
    refine hs.moveAccept (by rw [haccept]; nofun) (by rw [haccept]; nofun) fun k => ?_
    split <;> nofun
  | accepting =>
    rw [haccept] at h
    cases fd with
    | none =>
      obtain rfl := Option.some.inj h
      exact hs.moveAccept (by rw [haccept]; nofun) (by rw [haccept]; nofun) nofun
    | some fd =>
      simp only at h
      split at h
      · rename_i hfree
        obtain rfl := Option.some.inj h
        exact hs.accepted haccept hfree
      · cases h
  | registering k =>
    rw [haccept] at h
    obtain ⟨c, hk, h⟩ := Option.map_eq_some_iff.1 h
    have hc := (hs.pending k c hk).2 haccept
    cases hrunning : s.running with
    | true =>
      rw [hrunning, if_pos rfl] at h
      rw [← h]
      have hregistered := hs.registered haccept hk
      rwa [hrunning] at hregistered
    | false =>
      rw [hrunning, if_neg Bool.false_ne_true] at h
      rw [← h]
      have hopen : c.place ≠ .closed := by
        rw [hc]
        nofun
      have hhand : ∀ j, AcceptPc.returned = .registering j ↔ j ≠ k ∧ s.accept = .registering j := by
        intro j
        refine iff_of_false nofun ?_
        rintro ⟨hne, hj⟩
        rw [haccept] at hj
        cases hj
        exact hne rfl
      have hclosed := hs.closed hk hopen hhand fun _ => rfl
      rw [List.erase_of_not_mem (hs.owned.unlisted hk hc)] at hclosed
      rwa [hrunning] at hclosed
  | returned =>
    rw [haccept] at h
    cases h

theorem thread {k : Nat} (hs : Inv s) (h : Connections.thread s k = some t) : Inv t := by
  unfold Connections.thread at h
  obtain ⟨c, hk, h⟩ := Option.bind_eq_some_iff.1 h
  have hsame : c.place ≠ .accepted → ∀ j, s.accept = .registering j ↔ j ≠ k ∧ s.accept = .registering j := by
    intro hne j
    refine ⟨fun hj => ⟨?_, hj⟩, fun hj => hj.2⟩
    rintro rfl
    exact hne ((hs.pending j c hk).2 hj)
  cases hc : c.place with
  | accepted =>
    rw [hc] at h
    cases h
  | serving =>
    rw [hc] at h
    obtain rfl := Option.some.inj h
    have hthreaded : c.threaded = true := by
      unfold Conn.threaded
      rw [hc]
    refine ⟨hs.owned.leave hk hc, hs.placed hk nofun (hsame (by rw [hc]; nofun)), fun j hj => ?_, ?_, hs.returned,
      hs.listener⟩
    · show j < (s.files.conns.set k _).length
      rw [List.length_set]
      exact hs.unborn j hj
    · exact Pool.forall_getElem?_set hs.unjoined (fun _ _ _ hold => hold) fun _ => hs.unjoined k c hk hthreaded
  | closing =>
    rw [hc] at h
    have hthreaded : c.threaded = true := by
      unfold Conn.threaded
      rw [hc]
    have hmem : c.fd ∈ s.files.connFds := (hs.owned.listed c.fd).2 ⟨k, c, hk, rfl, hthreaded⟩
    simp only at h
    rw [if_pos hmem] at h
    obtain rfl := Option.some.inj h
    exact hs.closed hk (by rw [hc]; nofun) (hsame (by rw [hc]; nofun)) id
  | closed =>
    rw [hc] at h
    cases h

/-- `stop` moves on without touching a descriptor. -/
theorem moveStop (hs : Inv s) {pc : StopPc} {running : Bool} {connThreads : List Nat}
    (hunjoined : ∀ (k : Nat) (c : Conn), s.files.conns[k]? = some c → c.threaded = true → k ∈ pc.unjoined connThreads)
    (hjoined : pc.acceptJoined = true → s.accept = .returned) (hstop : s.stop ≠ .returned) :
    Inv { s with running, connThreads, stop := pc } :=
  ⟨hs.owned, hs.pending, hs.unborn, hunjoined, hjoined, fun _ => hs.listener hstop⟩

theorem stop (hs : Inv s) (h : Connections.stop s = some t) : Inv t := by
  unfold Connections.stop at h
  have hunjoined := hs.unjoined
  cases hstop : s.stop with
  | idle =>
    rw [hstop] at h hunjoined
    obtain rfl := Option.some.inj h
    exact hs.moveStop hunjoined nofun (by rw [hstop]; nofun)
  | shuttingListener =>
    rw [hstop] at h hunjoined
    obtain rfl := Option.some.inj h
    have hlistener := hs.listener (by rw [hstop]; nofun)
    exact ⟨hs.owned.logged hlistener fun _ => rfl, hs.pending, hs.unborn, hunjoined, nofun, fun _ => hlistener⟩
  | sweeping =>
    rw [hstop] at h hunjoined
    obtain rfl := Option.some.inj h
    have howned := hs.owned.sweep fun fd hfd => hfd
    rw [Owned.foldl_shutdownFd] at howned ⊢
    exact ⟨howned, hs.pending, hs.unborn, hunjoined, nofun, fun _ => hs.listener (by rw [hstop]; nofun)⟩
  | joiningAccept =>
    rw [hstop] at h hunjoined
    simp only at h
    split at h
    · rename_i hreturned
      obtain rfl := Option.some.inj h
      exact hs.moveStop hunjoined (fun _ => hreturned) (by rw [hstop]; nofun)
    · cases h
  | swapping =>
    rw [hstop] at h hunjoined
    obtain rfl := Option.some.inj h
    exact hs.moveStop hunjoined (fun _ => hs.returned (by rw [hstop]; rfl)) (by rw [hstop]; nofun)
  | joining threads =>
    rw [hstop] at h hunjoined
    simp only at h
    split at h
    · rename_i hall
      obtain rfl := Option.some.inj h
      refine hs.moveStop (fun k c hk hthreaded => ?_) (fun _ => hs.returned (by rw [hstop]; rfl)) (by rw [hstop]; nofun)
      have hfinished := List.all_eq_true.1 hall k (hunjoined k c hk hthreaded)
      unfold finished at hfinished
      rw [hk, Option.all_some] at hfinished
      exact absurd (of_decide_eq_true hfinished) (Conn.open_of_threaded hthreaded)
    · cases h
  | closingRest =>
    rw [hstop] at h hunjoined
    obtain rfl := Option.some.inj h
    have hnil : s.files.connFds = [] := by
      refine hs.owned.connFds_eq_nil fun k c hk => ?_
      cases hthreaded : c.threaded with
      | false => rfl
      | true => exact absurd (hunjoined k c hk hthreaded) List.not_mem_nil
    have hsame : { s.files.connFds.foldl (fun d fd => d.closeFd .listed fd) s.files with connFds := [] } = s.files := by
      rw [hnil, List.foldl_nil, ← hnil]
    rw [hsame]
    exact ⟨hs.owned, hs.pending, hs.unborn, hunjoined, fun _ => hs.returned (by rw [hstop]; rfl),
      fun _ => hs.listener (by rw [hstop]; nofun)⟩
  | closingListener =>
    rw [hstop] at h hunjoined
    obtain rfl := Option.some.inj h
    have hlistener := hs.listener (by rw [hstop]; nofun)
    have hforeign : Owned { s.files with table := Function.update s.files.table s.listenFd none } :=
      hs.owned.foreign (fun k => by rw [hlistener]; nofun) fun _ => nofun
    have howned : Owned (s.files.closeFd .listener s.listenFd) :=
      hforeign.logged hlistener fun k => by simp [Entry.closes, hlistener]
    exact ⟨howned, hs.pending, hs.unborn, hunjoined, fun _ => hs.returned (by rw [hstop]; rfl), fun h => absurd rfl h⟩
  | returned =>
    rw [hstop] at h
    cases h

/-- The rest of the process leaves the listener alone. -/
theorem outside (hs : Inv s) {fd : Fd} {owner : Option Owner} (hconn : ∀ k, s.files.table fd ≠ some (.conn k))
    (hlistener : s.files.table fd ≠ some .listener) (hnew : ∀ k, owner ≠ some (.conn k)) :
    Inv { s with files := { s.files with table := Function.update s.files.table fd owner } } := by
  refine ⟨hs.owned.foreign hconn hnew, hs.pending, hs.unborn, hs.unjoined, hs.returned, fun hstop => ?_⟩
  have hown := hs.listener hstop
  have hne : s.listenFd ≠ fd := by
    rintro rfl
    exact hlistener hown
  show Function.update s.files.table fd owner s.listenFd = _
  rw [Function.update_of_ne hne]
  exact hown

theorem step {l : Label} (hs : Inv s) (h : Connections.step s l = some t) : Inv t := by
  cases l with
  | acceptLoop ready fd => exact hs.acceptLoop h
  | thread k => exact hs.thread h
  | stop => exact hs.stop h
  | openOther fd =>
    simp only [Connections.step] at h
    split at h
    · rename_i hfree
      obtain rfl := Option.some.inj h
      exact hs.outside (fun k => by rw [hfree]; nofun) (by rw [hfree]; nofun) fun _ => nofun
    · cases h
  | closeOther fd =>
    simp only [Connections.step] at h
    split at h
    · rename_i hother
      obtain rfl := Option.some.inj h
      exact hs.outside (fun k => by rw [hother]; nofun) (by rw [hother]; nofun) fun _ => nofun
    · cases h

theorem listed_iff (hs : Inv s) (fd : Fd) :
    fd ∈ s.files.connFds ↔ ∃ k, s.files.table fd = some (.conn k) ∧ s.accept ≠ .registering k := by
  rw [hs.owned.listed]
  constructor
  · rintro ⟨k, c, hk, hfd, hthreaded⟩
    refine ⟨k, (hs.owned.owner fd k).2 ⟨c, hk, hfd, Conn.open_of_threaded hthreaded⟩, fun haccept => ?_⟩
    exact (Conn.threaded_iff.1 hthreaded).1 ((hs.pending k c hk).2 haccept)
  · rintro ⟨k, hown, haccept⟩
    obtain ⟨c, hk, hfd, hopen⟩ := (hs.owned.owner fd k).1 hown
    exact ⟨k, c, hk, hfd, Conn.threaded_iff.2 ⟨mt (hs.pending k c hk).1 haccept, hopen⟩⟩

theorem closed_once (hs : Inv s) {k : Nat} (hk : k < s.files.conns.length) :
    (∃ fd, s.files.table fd = some (.conn k)) ∧ s.files.log.countP (Entry.closes k) = 0 ∨
      (∀ fd, s.files.table fd ≠ some (.conn k)) ∧ s.files.log.countP (Entry.closes k) = 1 := by
  obtain ⟨c, hc⟩ : ∃ c, s.files.conns[k]? = some c := ⟨_, List.getElem?_eq_getElem hk⟩
  have hcloses := hs.owned.closes k
  rw [hc, Option.any_some] at hcloses
  by_cases hclosed : c.place = .closed
  · rw [decide_eq_true hclosed] at hcloses
    refine .inr ⟨fun fd hown => ?_, hcloses⟩
    obtain ⟨x, hx, -, hopen⟩ := (hs.owned.owner fd k).1 hown
    rw [hc] at hx
    cases hx
    exact hopen hclosed
  · rw [decide_eq_false hclosed] at hcloses
    exact .inl ⟨⟨c.fd, hs.owned.hit hc hclosed⟩, hcloses⟩

theorem sound (hs : Inv s) : Sound s := by
  refine ⟨hs.owned.nodup, hs.listed_iff, fun k hk => hs.closed_once hk, hs.owned.fair, fun hstop fd k hown => ?_⟩
  have hreturned := hs.returned (by rw [hstop]; rfl)
  have hmem : fd ∈ s.files.connFds := (hs.listed_iff fd).2 ⟨k, hown, by rw [hreturned]; nofun⟩
  obtain ⟨j, c, hj, -, hthreaded⟩ := (hs.owned.listed fd).1 hmem
  have hunjoined := hs.unjoined j c hj hthreaded
  rw [hstop] at hunjoined
  cases hunjoined

end Inv

/-- **Descriptors are closed once, by their owner**, in every interleaving of the accept loop, the connection threads and
`stop`, however the kernel reuses the numbers. -/
theorem sound_of_run {listenFd : Fd} {others : Fd → Bool} {l : List Label} {s : State}
    (h : Lts.run step (init listenFd others) l = some s) : Sound s :=
  (Lts.run_invariant (fun _ _ _ hs hstep => hs.step hstep) (inv_init listenFd others) h).sound

/-- The number 4 goes to a connection, to somebody else and to a second connection, which `stop` finds. -/
theorem sound_of_run_reused :
    let run := Lts.run step (init 3 fun fd => fd = 0)
      [.acceptLoop true none, .acceptLoop true none, .acceptLoop true (some 4), .acceptLoop true none, .thread 0, .thread 0,
        .openOther 4, .closeOther 4, .acceptLoop true none, .acceptLoop true none, .acceptLoop true (some 4),
        .acceptLoop true none, .stop, .stop, .stop, .acceptLoop true none, .thread 1, .thread 1, .stop, .stop, .stop, .stop,
        .stop]
    run.map (fun s => (s.files.conns.length, s.files.log.length)) = some (2, 7) ∧ ∃ s, run = some s ∧ Sound s := by
  intro run
  have hsome : run.isSome = true := rfl
  obtain ⟨s, hs⟩ := Option.isSome_iff_exists.1 hsome
  exact ⟨rfl, s, hs, sound_of_run hs⟩

end Connections
end Mcp
