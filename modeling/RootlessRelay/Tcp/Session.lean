import Mathlib.Logic.Function.Basic
import RootlessRelay.Library.InsertionMap
import RootlessRelay.Tcp.HeaderFields

/-!
# Sessions and their connections

A session holds its connections in two maps, `tcpConnections` under the port of
the VM and the remote endpoint, `reverseTcpConnections` under the port of the
relay. Segments and most handlers of endpoints look a connection up by its key,
while timers hold the object itself. The objects live in a heap: an endpoint can
outlive the entry of its connection, and the key can come to name another one.

The limiter belongs to the session. A connection is lent it for the time of a
callback and leaves it behind as it has used it; between two of its callbacks
the others may have used it as well. The invariant of the two maps (`Sound`) is
what makes `registered` of an object mean that the map holds it.
-/

namespace RootlessRelay

open InsertionMap

/-- A connection object, named by the order of creation. Names are never used
again. -/
abbrev ConnId := Nat

/-- `${srcPort}:${dstIP}:${dstPort}`, as the VM sends to it. The address of the
VM is no part of it. -/
structure ConnKey where
  srcPort : Int
  dstIP : IPv4
  dstPort : Port
  deriving DecidableEq, Repr

/-- A key of one of the two maps, of either map. -/
inductive MapKey
  | tcp (key : ConnKey)
  | reverseTcp (port : Port)
  deriving DecidableEq, Repr

/-- The `connKey` of a connection, in the map of its direction. -/
def Conn.mapKey (c : Conn) : MapKey :=
  match c.direction with
  | .outbound => .tcp { srcPort := c.tx.dstPort, dstIP := c.tx.srcIP, dstPort := c.tx.srcPort }
  | .reverse => .reverseTcp c.tx.srcPort

/-- The connection with the limiter of the session. -/
def Conn.lend (c : Conn) (rateLimiter : SlidingWindowRateLimiter) : Conn := { c with rateLimiter }

theorem VMSegment.empty_fits : ([] : Bytes).length < 65536 := by decide

/-- The tuple of the connection that a segment is meant for. -/
def VMSegment.flow (seg : VMSegment) : Tuple :=
  { srcPort := seg.dstPort, dstPort := seg.srcPort, srcIP := seg.dstIP, dstIP := seg.srcIP }

/-- The key that `handleTCP` or `handleReverseTCP` makes of the addresses of a
segment. -/
def Tuple.mapKey (cfg : Settings) (flow : Tuple) : MapKey :=
  if flow.srcIP = cfg.gatewayIP then .reverseTcp flow.srcPort
  else .tcp { srcPort := flow.dstPort, dstIP := flow.srcIP, dstPort := flow.srcPort }

/-- An object of the heap. Two fields are observations: `calls` counts what
handlers of endpoints have done to the connection, `clientClosed` says that its
local client is gone. -/
structure Held where
  conn : Conn
  calls : Nat
  clientClosed : Bool

structure TcpSession where
  vmIP : IPv4
  rateLimiter : SlidingWindowRateLimiter
  objects : ConnId → Option Held
  nextConn : ConnId
  tcpConnections : List (ConnKey × ConnId)
  reverseTcpConnections : List (Port × ConnId)
  recentlyClosed : List Port

/-- An event of what stands behind a connection on the side of the host. -/
inductive EndpointEvent
  /-- `data` of the real socket, or of `upstream`. -/
  | data (data : Bytes)
  /-- `end` of the real socket, or `close` of `upstream`. -/
  | ended
  /-- `error` of the real socket. -/
  | failed
  /-- `drain` of the real socket, or of `downstream`. -/
  | drained
  /-- `close` of the local client. -/
  | localClose
  /-- `error` of the local client, or the cleanup of an HTTP request. -/
  | abandoned

inductive SessionEvent
  | segment (isn : Seq) (seg : VMSegment)
  /-- `createTCPConnection`; the counter of ports is the module's. -/
  | connect (nextProxyPort : Port) (port : Int) (isn : Seq)
  | endpoint (id : ConnId) (event : EndpointEvent)
  /-- A timer of a connection, or a resume. -/
  | callback (id : ConnId) (event : Event)
  | forgetPort (port : Port)

namespace TcpSession

/-- A session before its first connection. -/
def start (vmIP : IPv4) (rateLimiter : SlidingWindowRateLimiter) : TcpSession :=
  ⟨vmIP, rateLimiter, fun _ => none, 0, [], [], []⟩

/-- Looking a key up in the map it belongs to. -/
def find (s : TcpSession) : MapKey → Option ConnId
  | .tcp key => get s.tcpConnections key
  | .reverseTcp port => get s.reverseTcpConnections port

/-- Setting an entry of the map the key belongs to. An entry that was there is
replaced. -/
def insert (s : TcpSession) (id : ConnId) : MapKey → TcpSession
  | .tcp key => { s with tcpConnections := set s.tcpConnections key id }
  | .reverseTcp port => { s with reverseTcpConnections := set s.reverseTcpConnections port id }

/-- Ports of the relay are kept from being used again for a while. -/
def remove (s : TcpSession) : MapKey → TcpSession
  | .tcp key => { s with tcpConnections := delete s.tcpConnections key }
  | .reverseTcp port => { s with
      reverseTcpConnections := delete s.reverseTcpConnections port
      recentlyClosed := port :: s.recentlyClosed }

def setObject (s : TcpSession) (id : ConnId) (held : Held) : TcpSession :=
  { s with objects := Function.update s.objects id (some held) }

/-- The object as a handler leaves it; where that has given it up, the entry is
gone. -/
def put (s : TcpSession) (id : ConnId) (held : Held) (calls : Nat) (c : Conn) : TcpSession :=
  let s := { s.setObject id { held with conn := c, calls := held.calls + calls } with
    rateLimiter := c.rateLimiter }
  if held.conn.registered && !c.registered then s.remove c.mapKey else s

/-- Run a function on an object; what it throws is passed on. -/
def act (s : TcpSession) (id : ConnId) (calls : Nat) (f : Conn → Outcome Conn) :
    TcpSession × Option Fault :=
  match s.objects id with
  | none => (s, none)
  | some held =>
      match f (held.conn.lend s.rateLimiter) with
      | .ok c => (s.put id held calls c, none)
      | .error thrown => (s.put id held calls thrown.conn, some thrown.fault)

/-- Change fields of an object that neither map depends on. -/
def note (s : TcpSession) (id : ConnId) (f : Held → Held) : TcpSession :=
  match s.objects id with
  | none => s
  | some held => s.setObject id (f held)

/-- A new object under its key, and what is done with it at once. -/
def add (s : TcpSession) (c : Conn) (f : Conn → Outcome Conn) : TcpSession × Option Fault :=
  let id := s.nextConn
  let s := { (s.setObject id ⟨c, 0, false⟩).insert id c.mapKey with nextConn := id + 1 }
  s.act id 0 f

variable (cfg : Settings) (turn : Turn)

def handleTCP (s : TcpSession) (isn : Seq) (seg : VMSegment) : TcpSession × Option Fault :=
  let connKey : ConnKey := { srcPort := seg.srcPort, dstIP := seg.dstIP, dstPort := seg.dstPort }
  match s.find (.tcp connKey) with
  | some id => s.act id 0 fun c => c.handleTCP cfg turn seg
  | none =>
      if seg.syn && !seg.ack then
        s.add (Conn.outboundConn cfg s.rateLimiter seg isn) fun c =>
          Conn.openOutbound cfg c.rateLimiter seg isn
      else (s, none)

/-- Without a connection the segment is refused, or ignored. -/
def handleReverseTCP (s : TcpSession) (seg : VMSegment) : TcpSession × Option Fault :=
  match s.find (.reverseTcp seg.dstPort) with
  | some id => s.act id 0 fun c => c.handleReverseTCP cfg turn seg
  | none => (s, none)

/-- `handleIPv4` for a segment that is not routed to another VM. -/
def receive (s : TcpSession) (isn : Seq) (seg : VMSegment) : TcpSession × Option Fault :=
  if seg.dstIP = cfg.gatewayIP then s.handleReverseTCP cfg turn seg
  else s.handleTCP cfg turn isn seg

/-- The counter `nextProxyPort`, one further, within its range. -/
def nextPort (port : Port) : Port := if port + 1 > 65535 then 30000 else port + 1

/-- The search for a port that is free, with so many attempts left. -/
def choosePort (s : TcpSession) : Nat → Port → Option Port
  | 0, _ => none
  | attempts + 1, srcPort =>
      if hasKey s.reverseTcpConnections srcPort || s.recentlyClosed.contains srcPort then
        s.choosePort attempts (nextPort srcPort)
      else some srcPort

def createTCPConnection (s : TcpSession) (nextProxyPort : Port) (port : Int) (isn : Seq) :
    TcpSession × Option Fault :=
  match s.choosePort 1000 nextProxyPort with
  | none => (s, none)
  | some srcPort =>
      s.add (Conn.reverseConn cfg s.rateLimiter s.vmIP srcPort port isn) fun c =>
        Conn.openReverse cfg c.rateLimiter s.vmIP srcPort port isn

/-- A handler that looks the connection up, and acts on what it finds if `test`
holds. -/
def onOccupant (s : TcpSession) (key : MapKey) (test : Conn → Bool) (f : Conn → Outcome Conn) :
    TcpSession × Option Fault :=
  match s.find key with
  | none => (s, none)
  | some id => if (s.objects id).any fun held => test held.conn then s.act id 1 f else (s, none)

/-- A handler that has the object itself, and asks whether the map still holds
it. -/
def onOwn (s : TcpSession) (id : ConnId) (key : MapKey) (f : Conn → Outcome Conn) :
    TcpSession × Option Fault :=
  if s.find key = some id then s.act id 1 f else (s, none)

/-- The handlers of the real socket of an outbound connection. -/
def onSocket (s : TcpSession) (id : ConnId) (key : MapKey) :
    EndpointEvent → TcpSession × Option Fault
  | .data data =>
      s.onOccupant key (fun _ => true) fun c => (c.enqueueTCPData cfg data).trySend cfg turn
  | .ended =>
      (s.note id fun held =>
        { held with conn.send.sourceEnded := true }).onOccupant key
        (fun c => c.state ≠ .closed) fun c => { c with send.pendingFin := true }.trySend cfg turn
  | .failed => s.onOccupant key (fun _ => true) fun c => .ok (c.abort cfg turn true)
  | .drained => s.onOwn id key fun c => .ok (c.onTCPReceiveDrain cfg)
  | .localClose | .abandoned => (s, none)

/-- The handlers of the streams of a reverse connection, and of its local
client. -/
def onStreams (s : TcpSession) (id : ConnId) (key : MapKey) :
    EndpointEvent → TcpSession × Option Fault
  | .data data =>
      -- the timer and the send loop by the key, the queue of the object itself
      let s := (s.onOccupant key (fun _ => true) fun c => .ok c.bumpActivity).1
      let s := s.note id fun held => { held with conn := held.conn.enqueueTCPData cfg data }
      s.onOccupant key (fun _ => true) fun c => c.trySend cfg turn
  | .ended =>
      (s.note id fun held => { held with conn.send.sourceEnded := true }).onOwn id key
        fun c => c.onSourceEnd cfg turn
  | .drained => s.onOwn id key fun c => .ok (c.onTCPReceiveDrain cfg)
  | .localClose =>
      (s.note id fun held => { held with clientClosed := true }).onOccupant key (fun _ => true)
        fun c => c.onLocalClose cfg turn
  | .abandoned => s.onOccupant key (fun _ => true) fun c => .ok (c.abort cfg turn true)
  | .failed => (s, none)

/-- An event of the endpoint of a connection, by the direction of the
connection. -/
def onEndpoint (s : TcpSession) (id : ConnId) (event : EndpointEvent) :
    TcpSession × Option Fault :=
  match s.objects id with
  | none => (s, none)
  | some held =>
      match held.conn.direction with
      | .outbound => s.onSocket cfg turn id held.conn.mapKey event
      | .reverse => s.onStreams cfg turn id held.conn.mapKey event

/-- One event of the session, and the exception it ends with, if any. -/
def handle (s : TcpSession) : SessionEvent → TcpSession × Option Fault
  | .segment isn seg => s.receive cfg turn isn seg
  | .connect nextProxyPort port isn => s.createTCPConnection cfg nextProxyPort port isn
  | .endpoint id event => s.onEndpoint cfg turn id event
  | .callback id event => s.act id 0 fun c => c.handle cfg turn event
  | .forgetPort port => ({ s with recentlyClosed := s.recentlyClosed.filter (· ≠ port) }, none)

end TcpSession

/-- The endpoint of the connection can emit the event: data before its end,
which comes once. -/
def Held.CanEmit (held : Held) : EndpointEvent → Prop
  | .data data => data ≠ [] ∧ held.conn.send.sourceEnded = false
  | .ended => held.conn.send.sourceEnded = false
  | .failed => held.conn.direction = .outbound
  | .drained => True
  | .localClose => held.conn.direction = .reverse ∧ held.clientClosed = false
  | .abandoned => held.conn.direction = .reverse

/-- A timer or a resume: what neither the VM nor the endpoint brings. -/
def Event.IsCallback : Event → Bool
  | .retransmissionTimer _ | .pacerTimer | .ackTimer | .idleTimer | .removalTimer | .rateRetry |
    .immediate | .staleResume | .transportFlush | .sinkEnd => true
  | .segment _ | .sourceData _ | .sourceEnd | .localClose | .endpointError | .sinkDrain |
    .otherTraffic _ => false

namespace TcpSession

variable (cfg : Settings)

/-- The event can occur: the VM may send anything at any time, the others need a
cause. -/
def Enabled (s : TcpSession) : SessionEvent → Prop
  | .segment _ _ | .connect _ _ _ => True
  | .endpoint id event => ∃ held, s.objects id = some held ∧ held.CanEmit event
  | .callback id event =>
      event.IsCallback = true ∧ ∃ held, s.objects id = some held ∧ held.conn.Enabled event
  | .forgetPort port => port ∈ s.recentlyClosed

/-- One event of the session that throws nothing. -/
def Step (s : TcpSession) (label : Turn × SessionEvent) (s' : TcpSession) : Prop :=
  s.Enabled label.2 ∧ s.handle cfg label.1 label.2 = (s', none)

/-- `s` occurs in a run of some session. -/
def Reachable (s : TcpSession) : Prop :=
  ∃ vmIP rateLimiter, Transition.Reaches (Step cfg) (start vmIP rateLimiter) s

/-- The maps hold exactly the objects that are registered, each under its own
key. -/
structure Sound (s : TcpSession) : Prop where
  fresh : ∀ id held, s.objects id = some held → id < s.nextConn
  entries : ∀ key id, s.find key = some id →
    ∃ held, s.objects id = some held ∧ held.conn.registered = true ∧ held.conn.mapKey = key
  listed : ∀ id held, s.objects id = some held → held.conn.registered = true →
    s.find held.conn.mapKey = some id

variable {cfg} {turn : Turn} {s s' : TcpSession} {id id' : ConnId} {key key' : MapKey}
  {held held' : Held} {c c' : Conn} {f : Conn → Outcome Conn} {calls : Nat}

@[simp] theorem find_insert :
    (s.insert id key).find key' = if key = key' then some id else s.find key' := by
  cases key <;> cases key' <;> simp [insert, find, get_set]

@[simp] theorem find_remove : (s.remove key).find key' = if key = key' then none else s.find key' := by
  cases key <;> cases key' <;> simp [remove, find, get_delete]

@[simp] theorem objects_insert : (s.insert id key).objects = s.objects := by
  cases key <;> rfl

@[simp] theorem objects_remove : (s.remove key).objects = s.objects := by
  cases key <;> rfl

@[simp] theorem nextConn_insert : (s.insert id key).nextConn = s.nextConn := by
  cases key <;> rfl

@[simp] theorem nextConn_remove : (s.remove key).nextConn = s.nextConn := by
  cases key <;> rfl

@[simp] theorem find_setObject : (s.setObject id held).find key = s.find key := by
  cases key <;> rfl

theorem objects_setObject (s : TcpSession) (id : ConnId) (held : Held) (id' : ConnId) :
    (s.setObject id held).objects id' = if id' = id then some held else s.objects id' :=
  Function.update_apply _ _ _ _

theorem objects_put (s : TcpSession) (id : ConnId) (held : Held) (calls : Nat) (c : Conn)
    (id' : ConnId) : (s.put id held calls c).objects id' =
      if id' = id then some { held with conn := c, calls := held.calls + calls }
      else s.objects id' := by
  unfold put
  dsimp only
  split
  · rw [objects_remove]
    exact objects_setObject s id _ id'
  · exact objects_setObject s id _ id'

/-- A handler leaves every object but its own as it is. -/
theorem objects_act (hne : id' ≠ id) : (s.act id calls f).1.objects id' = s.objects id' := by
  unfold act
  cases s.objects id with
  | none => rfl
  | some held =>
      dsimp only
      split
      · exact (objects_put s id held calls _ id').trans (if_neg hne)
      · exact (objects_put s id held calls _ id').trans (if_neg hne)

/-- Only what the function does with the object matters. -/
theorem act_congr {g : Conn → Outcome Conn} (hheld : s.objects id = some held)
    (h : f (held.conn.lend s.rateLimiter) = g (held.conn.lend s.rateLimiter)) :
    s.act id calls f = s.act id calls g := by
  unfold act
  rw [hheld]
  dsimp only
  rw [h]

theorem act_eq (hheld : s.objects id = some held)
    (hf : f (held.conn.lend s.rateLimiter) = .ok c) :
    s.act id calls f = (s.put id held calls c, none) := by
  unfold act
  rw [hheld]
  dsimp only
  rw [hf]

theorem objects_add (hne : id' ≠ s.nextConn) : (s.add c f).1.objects id' = s.objects id' := by
  unfold add
  dsimp only
  rw [objects_act hne]
  change ((s.setObject s.nextConn ⟨c, 0, false⟩).insert s.nextConn c.mapKey).objects id' = _
  rw [objects_insert, objects_setObject, if_neg hne]

theorem nextConn_put (s : TcpSession) (id : ConnId) (held : Held) (calls : Nat) (c : Conn) :
    (s.put id held calls c).nextConn = s.nextConn := by
  unfold put
  dsimp only
  split
  · exact nextConn_remove
  · rfl

/-- Changing an object changes what its own key finds, and only when the object
leaves the map. -/
theorem find_put (s : TcpSession) (id : ConnId) (held : Held) (calls : Nat) (c : Conn)
    (key : MapKey) : (s.put id held calls c).find key =
      if (held.conn.registered && !c.registered) = true ∧ c.mapKey = key then none
      else s.find key := by
  have hsame : ({ s.setObject id { held with conn := c, calls := held.calls + calls } with
      rateLimiter := c.rateLimiter } : TcpSession).find key = s.find key := by
    cases key <;> rfl
  unfold put
  dsimp only
  split
  · rename_i hgone
    rw [find_remove, hsame]
    simp [hgone]
  · rename_i hkept
    rw [hsame, if_neg fun h => hkept h.1]

/-- The direction of a connection is that of its map. -/
theorem direction_of_mapKey (h : c.mapKey = key) :
    (∀ port, key = .reverseTcp port → c.direction = .reverse) ∧
      ∀ connKey, key = .tcp connKey → c.direction = .outbound := by
  subst h
  unfold Conn.mapKey
  cases c.direction <;> simp

@[simp] theorem mapKey_lend (c : Conn) (limiter : SlidingWindowRateLimiter) :
    (c.lend limiter).mapKey = c.mapKey := rfl

theorem mapKey_of_keeps (h : Conn.Keeps cfg c c') : c'.mapKey = c.mapKey := by
  unfold Conn.mapKey
  rw [h.direction, h.tx]

/-- An object that is registered, changed under its own key. -/
theorem Sound.put (h : Sound s) (hheld : s.objects id = some held)
    (hreg : held.conn.registered = true) (hkey : c.mapKey = held.conn.mapKey) :
    Sound (s.put id held calls c) := by
  refine ⟨fun id' held' hheld' => ?_, fun key id' hfind => ?_, fun id' held' hheld' hreg' => ?_⟩
  · rw [objects_put] at hheld'
    rw [nextConn_put]
    split at hheld'
    · rename_i hsame
      exact hsame ▸ h.fresh id held hheld
    · exact h.fresh id' held' hheld'
  · rw [find_put, hreg] at hfind
    split at hfind
    · cases hfind
    · rename_i hkept
      obtain ⟨held', hheld', hreg', hkey'⟩ := h.entries key id' hfind
      rw [objects_put]
      by_cases hsame : id' = id
      · subst hsame
        obtain rfl := Option.some.inj (hheld.symm.trans hheld')
        rw [if_pos rfl]
        refine ⟨_, rfl, ?_, hkey.trans hkey'⟩
        by_contra hgone
        exact hkept ⟨by simpa using hgone, hkey.trans hkey'⟩
      · rw [if_neg hsame]
        exact ⟨held', hheld', hreg', hkey'⟩
  · rw [objects_put] at hheld'
    rw [find_put, hreg]
    by_cases hsame : id' = id
    · subst hsame
      rw [if_pos rfl] at hheld'
      obtain rfl := Option.some.inj hheld'
      dsimp only at hreg' ⊢
      rw [if_neg (by simp [hreg']), hkey]
      exact h.listed id' held hheld hreg
    · rw [if_neg hsame] at hheld'
      have hfind := h.listed id' held' hheld' hreg'
      -- another object has another key, which is not the one that goes
      rw [if_neg]
      · exact hfind
      · rintro ⟨-, hkey'⟩
        rw [← hkey', hkey, h.listed id held hheld hreg] at hfind
        exact hsame (Option.some.inj hfind).symm

/-- A function that is run on an object the maps hold, and keeps its key. -/
theorem Sound.act (h : Sound s) (hreg : ∀ held, s.objects id = some held → held.conn.registered = true)
    (hkey : ∀ held c, s.objects id = some held →
      f (held.conn.lend s.rateLimiter) = .ok c → c.mapKey = held.conn.mapKey)
    (hok : (s.act id calls f).2 = none) : Sound (s.act id calls f).1 := by
  unfold TcpSession.act at hok ⊢
  cases hheld : s.objects id with
  | none => exact h
  | some held =>
      rw [hheld] at hok
      dsimp only at hok ⊢
      cases hf : f (held.conn.lend s.rateLimiter) with
      | error thrown =>
          rw [hf] at hok
          cases hok
      | ok c => exact h.put hheld (hreg held hheld) (hkey held c hheld hf)

/-- Fields that no map depends on may change. -/
theorem Sound.note {f : Held → Held} (h : Sound s)
    (hkey : ∀ held, (f held).conn.mapKey = held.conn.mapKey)
    (hreg : ∀ held, (f held).conn.registered = held.conn.registered) : Sound (s.note id f) := by
  unfold TcpSession.note
  cases hheld : s.objects id with
  | none => exact h
  | some held =>
      refine ⟨fun id' held' hheld' => ?_, fun key id' hfind => ?_, fun id' held' hheld' hreg' => ?_⟩
      · rw [objects_setObject] at hheld'
        split at hheld'
        · rename_i hsame
          exact hsame ▸ h.fresh id held hheld
        · exact h.fresh id' held' hheld'
      · rw [find_setObject] at hfind
        obtain ⟨held', hheld', hreg', hkey'⟩ := h.entries key id' hfind
        rw [objects_setObject]
        split
        · rename_i hsame
          subst hsame
          obtain rfl := Option.some.inj (hheld.symm.trans hheld')
          exact ⟨_, rfl, (hreg held).trans hreg', (hkey held).trans hkey'⟩
        · exact ⟨held', hheld', hreg', hkey'⟩
      · rw [objects_setObject] at hheld'
        rw [find_setObject]
        split at hheld'
        · rename_i hsame
          subst hsame
          obtain rfl := Option.some.inj hheld'
          rw [hkey]
          exact h.listed id' held hheld ((hreg held).symm.trans hreg')
        · exact h.listed id' held' hheld' hreg'

theorem Sound.find_registered (h : Sound s) (hfind : s.find key = some id) :
    ∀ held, s.objects id = some held → held.conn.registered = true := by
  intro held hheld
  obtain ⟨held', hheld', hreg, -⟩ := h.entries key id hfind
  rwa [Option.some.inj (hheld.symm.trans hheld')]

/-- A handler of a connection that has been looked up. -/
theorem Sound.actFound (h : Sound s) (hfind : s.find key = some id)
    (hkeeps : ∀ c c', f c = .ok c' → Conn.Keeps cfg c c') (hok : (s.act id calls f).2 = none) :
    Sound (s.act id calls f).1 := by
  refine h.act (h.find_registered hfind) (fun held c _ hf => ?_) hok
  have hkept := mapKey_of_keeps (hkeeps _ _ hf)
  rwa [mapKey_lend] at hkept

/-- A handler that acts on what the key finds keeps the maps sound. -/
theorem Sound.onOccupant {test : Conn → Bool} (h : Sound s)
    (hkeeps : ∀ c c', f c = .ok c' → Conn.Keeps cfg c c') (hok : (s.onOccupant key test f).2 = none) :
    Sound (s.onOccupant key test f).1 := by
  unfold TcpSession.onOccupant at hok ⊢
  cases hfind : s.find key with
  | none => exact h
  | some id =>
      rw [hfind] at hok
      dsimp only at hok ⊢
      split at hok
      · rename_i htest
        rw [if_pos htest]
        exact h.actFound hfind hkeeps hok
      · rename_i htest
        rw [if_neg htest]
        exact h

theorem Sound.onOwn (h : Sound s) (hkeeps : ∀ c c', f c = .ok c' → Conn.Keeps cfg c c')
    (hok : (s.onOwn id key f).2 = none) : Sound (s.onOwn id key f).1 := by
  unfold TcpSession.onOwn at hok ⊢
  split
  · rename_i hfind
    rw [if_pos hfind] at hok
    exact h.actFound hfind hkeeps hok
  · exact h

/-- What throws nothing leaves no fault. -/
theorem act_ok (hf : ∀ c, ∃ c', f c = .ok c') : (s.act id calls f).2 = none := by
  unfold act
  cases s.objects id with
  | none => rfl
  | some held =>
      obtain ⟨c, hc⟩ := hf (held.conn.lend s.rateLimiter)
      dsimp only
      rw [hc]

theorem onOccupant_ok {test : Conn → Bool} (hf : ∀ c, ∃ c', f c = .ok c') :
    (s.onOccupant key test f).2 = none := by
  unfold onOccupant
  split
  · rfl
  · split
    · exact act_ok hf
    · rfl

/-- A new object, under a key that was free. -/
theorem Sound.add (h : Sound s) (hfree : s.find c.mapKey = none) (hreg : c.registered = true)
    (hkey : ∀ limiter c', f (c.lend limiter) = .ok c' → c'.mapKey = c.mapKey)
    (hok : (s.add c f).2 = none) : Sound (s.add c f).1 := by
  have hnone : s.objects s.nextConn = none := by
    by_contra hsome
    obtain ⟨held, hheld⟩ := Option.ne_none_iff_exists'.mp hsome
    exact Nat.lt_irrefl _ (h.fresh _ held hheld)
  have hadded : Sound { (s.setObject s.nextConn ⟨c, 0, false⟩).insert s.nextConn c.mapKey with
      nextConn := s.nextConn + 1 } := by
    have hobjects : ∀ id, ({ (s.setObject s.nextConn ⟨c, 0, false⟩).insert s.nextConn c.mapKey with
        nextConn := s.nextConn + 1 } : TcpSession).objects id =
        if id = s.nextConn then some ⟨c, 0, false⟩ else s.objects id := by
      intro id
      change ((s.setObject s.nextConn ⟨c, 0, false⟩).insert s.nextConn c.mapKey).objects id = _
      rw [objects_insert, objects_setObject]
    have hfind : ∀ key, ({ (s.setObject s.nextConn ⟨c, 0, false⟩).insert s.nextConn c.mapKey with
        nextConn := s.nextConn + 1 } : TcpSession).find key =
        if c.mapKey = key then some s.nextConn else s.find key := by
      intro key
      rw [← @find_setObject s s.nextConn key ⟨c, 0, false⟩, ← find_insert]
      cases key <;> rfl
    refine ⟨fun id held hheld => ?_, fun key id hentry => ?_, fun id held hheld hreg' => ?_⟩
    · rw [hobjects] at hheld
      change id < s.nextConn + 1
      split at hheld
      · rename_i hsame
        exact hsame ▸ Nat.lt_succ_self _
      · exact Nat.lt_succ_of_lt (h.fresh id held hheld)
    · rw [hfind] at hentry
      rw [hobjects]
      split at hentry
      · rename_i hkey'
        obtain rfl := Option.some.inj hentry
        rw [if_pos rfl]
        exact ⟨_, rfl, hreg, hkey'⟩
      · obtain ⟨held, hheld, hrest⟩ := h.entries key id hentry
        rw [if_neg]
        · exact ⟨held, hheld, hrest⟩
        · rintro rfl
          rw [hnone] at hheld
          cases hheld
    · rw [hobjects] at hheld
      rw [hfind]
      split at hheld
      · rename_i hsame
        obtain rfl := Option.some.inj hheld
        rw [if_pos rfl, hsame]
      · have hlisted := h.listed id held hheld hreg'
        rw [if_neg]
        · exact hlisted
        · intro hkey'
          rw [← hkey', hfree] at hlisted
          cases hlisted
  have hobject : ∀ held, ({ (s.setObject s.nextConn ⟨c, 0, false⟩).insert s.nextConn c.mapKey with
      nextConn := s.nextConn + 1 } : TcpSession).objects s.nextConn = some held →
      held = ⟨c, 0, false⟩ := by
    intro held hheld
    change ((s.setObject s.nextConn ⟨c, 0, false⟩).insert s.nextConn c.mapKey).objects _ = _ at hheld
    rw [objects_insert, objects_setObject, if_pos rfl] at hheld
    exact (Option.some.inj hheld).symm
  refine hadded.act (fun held hheld => ?_) (fun held c' hheld hf => ?_) hok
  · rw [hobject held hheld]
    exact hreg
  · rw [hobject held hheld] at hf ⊢
    exact hkey _ c' hf

theorem choosePort_free {attempts : Nat} {srcPort port : Port}
    (h : s.choosePort attempts srcPort = some port) : s.find (.reverseTcp port) = none := by
  induction attempts generalizing srcPort with
  | zero => cases h
  | succ attempts ih =>
      unfold choosePort at h
      split at h
      · exact ih h
      · rename_i hfree
        obtain rfl := Option.some.inj h
        simp only [Bool.or_eq_true, not_or] at hfree
        rw [hasKey_eq_isSome] at hfree
        exact Option.not_isSome_iff_eq_none.mp hfree.1

theorem openOutbound_key {rateLimiter : SlidingWindowRateLimiter} {seg : VMSegment} {isn : Seq}
    (h : Conn.openOutbound cfg rateLimiter seg isn = .ok c) :
    c.mapKey = .tcp { srcPort := seg.srcPort, dstIP := seg.dstIP, dstPort := seg.dstPort } := by
  obtain rfl := Conn.transmit_of_openOutbound h
  rfl

theorem openReverse_key {rateLimiter : SlidingWindowRateLimiter} {vmIP : IPv4}
    {srcPort : Port} {port : Int} {isn : Seq}
    (h : Conn.openReverse cfg rateLimiter vmIP srcPort port isn = .ok c) :
    c.mapKey = .reverseTcp srcPort := by
  obtain rfl := Conn.transmit_of_openReverse h
  rfl

/-- A segment for the outbound handler may open a connection under a key that is
free. -/
theorem Sound.handleTCP {isn : Seq} {seg : VMSegment} (h : Sound s)
    (hok : (s.handleTCP cfg turn isn seg).2 = none) : Sound (s.handleTCP cfg turn isn seg).1 := by
  unfold TcpSession.handleTCP at hok ⊢
  dsimp only at hok ⊢
  split
  · rename_i id hfind
    rw [hfind] at hok
    exact h.actFound hfind (fun _ _ hf => Conn.handleTCP_keeps hf) hok
  · rename_i hfree
    rw [hfree] at hok
    dsimp only at hok
    split
    · rename_i hsyn
      rw [if_pos hsyn] at hok
      exact h.add hfree rfl (fun _ _ hf => openOutbound_key hf) hok
    · exact h

theorem Sound.handleReverseTCP {seg : VMSegment} (h : Sound s)
    (hok : (s.handleReverseTCP cfg turn seg).2 = none) :
    Sound (s.handleReverseTCP cfg turn seg).1 := by
  unfold TcpSession.handleReverseTCP at hok ⊢
  split
  · rename_i id hfind
    rw [hfind] at hok
    exact h.actFound hfind (fun _ _ hf => Conn.handleReverseTCP_keeps hf) hok
  · exact h

theorem Sound.receive {isn : Seq} {seg : VMSegment} (h : Sound s)
    (hok : (s.receive cfg turn isn seg).2 = none) : Sound (s.receive cfg turn isn seg).1 := by
  unfold TcpSession.receive at hok ⊢
  split
  · rename_i hgateway
    rw [if_pos hgateway] at hok
    exact h.handleReverseTCP hok
  · rename_i hgateway
    rw [if_neg hgateway] at hok
    exact h.handleTCP hok

theorem Sound.createTCPConnection {nextProxyPort : Port} {port : Int} {isn : Seq} (h : Sound s)
    (hok : (s.createTCPConnection cfg nextProxyPort port isn).2 = none) :
    Sound (s.createTCPConnection cfg nextProxyPort port isn).1 := by
  unfold TcpSession.createTCPConnection at hok ⊢
  split
  · exact h
  · rename_i srcPort hchosen
    rw [hchosen] at hok
    exact h.add (choosePort_free hchosen) rfl (fun _ _ hf => openReverse_key hf) hok

theorem Sound.onSocket {event : EndpointEvent} (h : Sound s)
    (hok : (s.onSocket cfg turn id key event).2 = none) :
    Sound (s.onSocket cfg turn id key event).1 := by
  cases event with
  | data data => exact h.onOccupant (fun _ _ hf => (Conn.trySend_keeps hf).after rfl) hok
  | ended =>
      have hnoted : Sound (s.note id fun held =>
          { held with conn.send.sourceEnded := true }) := h.note (fun _ => rfl) (fun _ => rfl)
      exact hnoted.onOccupant (fun _ _ hf => (Conn.trySend_keeps hf).after rfl) hok
  | failed => exact h.onOccupant (fun _ _ hf => @Conn.handle_keeps cfg turn _ _ .endpointError hf) hok
  | drained => exact h.onOwn (fun _ _ hf => @Conn.handle_keeps cfg turn _ _ .sinkDrain hf) hok
  | localClose => exact h
  | abandoned => exact h

/-- The handlers of streams keep the maps sound, whatever they find. -/
theorem Sound.onStreams {event : EndpointEvent} (h : Sound s)
    (hok : (s.onStreams cfg turn id key event).2 = none) :
    Sound (s.onStreams cfg turn id key event).1 := by
  cases event with
  | data data =>
      have hbump : Sound (s.onOccupant key (fun _ => true) fun c => .ok c.bumpActivity).1 := by
        refine @Sound.onOccupant cfg _ _ _ _ h (fun c c' hf => ?_) (onOccupant_ok fun c => ⟨_, rfl⟩)
        have hbumped := Conn.bumpActivity_keeps cfg c
        rwa [Except.ok.inj hf] at hbumped
      have hnoted : Sound (TcpSession.note _ id fun held =>
        { held with conn := held.conn.enqueueTCPData cfg data }) :=
        hbump.note (fun _ => rfl) (fun _ => rfl)
      exact hnoted.onOccupant (fun _ _ hf => Conn.trySend_keeps hf) hok
  | ended =>
      have hnoted : Sound (s.note id fun held =>
          { held with conn.send.sourceEnded := true }) := h.note (fun _ => rfl) (fun _ => rfl)
      exact hnoted.onOwn (fun _ _ hf => @Conn.handle_keeps cfg turn _ _ .sourceEnd hf) hok
  | failed => exact h
  | drained => exact h.onOwn (fun _ _ hf => @Conn.handle_keeps cfg turn _ _ .sinkDrain hf) hok
  | localClose =>
      have hnoted : Sound (s.note id fun held => { held with clientClosed := true }) :=
        h.note (fun _ => rfl) (fun _ => rfl)
      exact hnoted.onOccupant (fun _ _ hf => (Conn.trySend_keeps hf).after rfl) hok
  | abandoned => exact h.onOccupant (fun _ _ hf => @Conn.handle_keeps cfg turn _ _ .endpointError hf) hok

/-- An event of an endpoint keeps the maps sound. -/
theorem Sound.onEndpoint {event : EndpointEvent} (h : Sound s)
    (hok : (s.onEndpoint cfg turn id event).2 = none) :
    Sound (s.onEndpoint cfg turn id event).1 := by
  unfold TcpSession.onEndpoint at hok ⊢
  split
  · exact h
  · rename_i held hheld
    rw [hheld] at hok
    dsimp only at hok
    split
    · rename_i hdir
      rw [hdir] at hok
      exact h.onSocket hok
    · rename_i hdir
      rw [hdir] at hok
      exact h.onStreams hok

/-- The step lemma of the maps, one case for each kind of event. -/
theorem Sound.step {label : Turn × SessionEvent} (h : Sound s) (hstep : Step cfg s label s') :
    Sound s' := by
  obtain ⟨turn, event⟩ := label
  obtain ⟨henabled, hhandle⟩ := hstep
  have hok : (s.handle cfg turn event).2 = none := congrArg Prod.snd hhandle
  have hafter : (s.handle cfg turn event).1 = s' := congrArg Prod.fst hhandle
  rw [← hafter]
  cases event with
  | segment isn seg => exact h.receive hok
  | connect nextProxyPort port isn => exact h.createTCPConnection hok
  | endpoint id event => exact h.onEndpoint hok
  | callback id event =>
      obtain ⟨-, held, hheld, hreg, -⟩ := henabled
      refine h.act (fun held' hheld' => ?_) (fun held' c _ hf => ?_) hok
      · rwa [← Option.some.inj (hheld.symm.trans hheld')]
      · have hkept := mapKey_of_keeps (Conn.handle_keeps hf)
        rwa [mapKey_lend] at hkept
  | forgetPort port =>
      have hfind : ∀ key, ({ s with recentlyClosed := s.recentlyClosed.filter (· ≠ port) } :
          TcpSession).find key = s.find key := by
        intro key
        cases key <;> rfl
      refine ⟨h.fresh, fun key id hentry => ?_, fun id held hheld hreg => ?_⟩
      · exact h.entries key id ((hfind key).symm.trans hentry)
      · exact (hfind _).trans (h.listed id held hheld hreg)

theorem sound_start (vmIP : IPv4) (rateLimiter : SlidingWindowRateLimiter) :
    Sound (start vmIP rateLimiter) := by
  have hfind : ∀ key, (start vmIP rateLimiter).find key = none := by
    intro key
    cases key <;> rfl
  refine ⟨fun id held hheld => ?_, fun key id hentry => ?_, fun id held hheld => ?_⟩
  · exact absurd hheld (Option.some_ne_none held).symm
  · exact absurd ((hfind key).symm.trans hentry) (Option.some_ne_none id).symm
  · exact absurd hheld (Option.some_ne_none held).symm

/-- `registered` says of every object whether the map holds it. -/
theorem Reachable.sound (h : Reachable cfg s) : Sound s := by
  obtain ⟨vmIP, rateLimiter, labels, hrun⟩ := h
  exact hrun.invariant (fun _ _ _ hsound hstep => hsound.step hstep) (sound_start vmIP rateLimiter)

instance (held : Held) : (event : EndpointEvent) → Decidable (held.CanEmit event)
  | .data data => inferInstanceAs (Decidable (data ≠ [] ∧ held.conn.send.sourceEnded = false))
  | .ended => inferInstanceAs (Decidable (held.conn.send.sourceEnded = false))
  | .failed => inferInstanceAs (Decidable (held.conn.direction = .outbound))
  | .drained => inferInstanceAs (Decidable True)
  | .localClose =>
    inferInstanceAs (Decidable (held.conn.direction = .reverse ∧ held.clientClosed = false))
  | .abandoned => inferInstanceAs (Decidable (held.conn.direction = .reverse))

instance (objects : Option Held) (p : Held → Prop) [DecidablePred p] :
    Decidable (∃ held, objects = some held ∧ p held) :=
  decidable_of_iff (objects.any fun held => decide (p held)) (by
    simp only [Option.any_eq_true, decide_eq_true_eq])

instance (s : TcpSession) : (event : SessionEvent) → Decidable (s.Enabled event)
  | .segment _ _ | .connect _ _ _ => inferInstanceAs (Decidable True)
  | .endpoint id event =>
    inferInstanceAs (Decidable (∃ held, s.objects id = some held ∧ held.CanEmit event))
  | .callback id event => inferInstanceAs (Decidable (event.IsCallback = true ∧
      ∃ held, s.objects id = some held ∧ held.conn.Enabled event))
  | .forgetPort port => inferInstanceAs (Decidable (port ∈ s.recentlyClosed))

/-- Events in order, as long as each of them is enabled and throws nothing. -/
def execute (cfg : Settings) (s : TcpSession) : List (Turn × SessionEvent) → Option TcpSession
  | [] => some s
  | label :: labels =>
      if s.Enabled label.2 ∧ (s.handle cfg label.1 label.2).2 = none then
        execute cfg (s.handle cfg label.1 label.2).1 labels
      else none

theorem run_of_execute {labels : List (Turn × SessionEvent)} (h : s.execute cfg labels = some s') :
    Transition.Run (Step cfg) s labels s' := by
  induction labels generalizing s with
  | nil =>
      obtain rfl := Option.some.inj h
      exact .nil _
  | cons label labels ih =>
      unfold execute at h
      split at h
      · rename_i hlabel
        exact .cons ⟨hlabel.1, Prod.ext rfl hlabel.2⟩ (ih h)
      · cases h

end TcpSession

end RootlessRelay
