import Fanout.Scenario.Settle

namespace Fanout

inductive PortChoice where
  | number (port : UInt16)
  | lastOf (server : String)
  deriving DecidableEq, Repr

inductive CallTarget where
  | listener (name : String) (ip : Option Ip)
  | address (ip : String) (port : UInt16)
  deriving DecidableEq, Repr

inductive ScenarioStep where
  | server (name : String) (config : ServerConfig)
  | start (server : String) (port : PortChoice) (autoReap : Bool)
  | accept (server connection : String) (secs : Nat)
  | broadcast (server : String) (payload : List UInt8)
  | sendTo (server address : String) (payload : List UInt8)
  | sendConnection (connection : String) (payload : List UInt8)
  | subscribe (party : String) (subscription : Subscription)
  | reap (server : String)
  | count (server : String)
  | shutdown (server : String)
  | dropServer (server : String)
  | single (connection peer : String) (ip : Ip) (source : Option Ip) (settings : Settings)
      (raisesOnMessage raisesOnDisconnect resetFirst : Bool)
  | listen (connection : String)
  | send (connection : String) (payload : List UInt8)
  | close (connection : String)
  | closeTwice (connection : String)
  | describe (connection : String)
  | client (name : String) (config : ClientConfig)
  | connect (client : String) (target : CallTarget)
  | connectTwice (client : String) (target : CallTarget)
  | clientSend (client : String) (payload : List UInt8)
  | clientClose (client : String)
  | bareListener (name : String) (ip : Ip) (isStalled isClosed : Bool)
  | bareAccept (listener peer : String)
  | peer (name : String) (target : CallTarget) (source : Option Ip)
  | write (peer : String) (payload : List UInt8)
  | read (peer : String) (bytes : Option Nat)
  | half (peer : String)
  | drop (peer : String)
  | reset (peer : String)
  | advance (ms : Nat)
  | spawn (task : String) (step : ScenarioStep)
  | join (task : String)

namespace World

def misplaced (w : World) : World × Ticket :=
  (w, .settled .misplaced)

def answering (w : World) (a : Answer) : World × Ticket :=
  (w, .settled a)

def portOf? (w : World) : PortChoice → Option UInt16
  | .number port => some port
  | .lastOf name =>
      match w.findParty? name with
      | some (_, .server s) => s.listeners.getLast?.map fun l => l.address.port
      | _ => none

def startServer (w : World) (p : Nat) (s : Server) (port : UInt16) (autoReap : Bool) :
    World × Ticket :=
  let bound :=
    match w.bind s.config.bindAddress port with
    | .ok address => .ok address
    | .error fault => .error fault.message
  match s.start port autoReap bound with
  | (s, .ok address) =>
      ((w.usePort address.port).setParty p (.server s), .settled (.listening address))
  | (_, .error e) => w.answering (.serverError e)

def request (w : World) (p : Nat) (s : Server) (r : Server.Request) (host : Option String) :
    World × Ticket :=
  match s.step w.behaviour (.begin r) with
  | some s' => (w.setParty p (.server s'), .task p s.tasks.length host)
  | none => w.misplaced

def requestOf (w : World) (server : String) (r : Server.Request) : World × Ticket :=
  match w.server? server with
  | some (p, s) => w.request p s r none
  | none => w.misplaced

def subscribeTo (w : World) (p : Nat) (party : Party) (subscription : Subscription) :
    World × Ticket :=
  let (observers, roster) := subscription.enroll w.roster
  let own := observers.flatMap fun o => o.onMessage.toList ++ o.onDisconnect.toList
  let nested := (List.range' w.roster.size (roster.size - w.roster.size)).filter (!own.contains ·)
  let w := { w with roster, quiet := w.quiet ++ nested }
  match party with
  | .server s =>
      let bus := observers.foldl Bus.subscribe s.feed.bus
      (w.setParty p (.server { s with feed := { s.feed with bus } }), .settled .ok)
  | .client s =>
      let bus := observers.foldl Bus.subscribe s.feed.bus
      (w.setParty p (.client { s with feed := { s.feed with bus } }), .settled .ok)
  | .single _ => w.misplaced

def openSingle (w : World) (name peer : String) (ip : Ip) (source? : Option Ip)
    (settings : Settings) (raisesOnMessage raisesOnDisconnect resetFirst : Bool) :
    World × Ticket :=
  let source := source?.getD (ownAddress ip)
  if (w.network.callFault? ip).isSome || (w.network.bindFault? source).isSome then w.misplaced
  else
    let origin : SocketAddress := { ip := source, port := (w.freshPort + 1).toUInt16 }
    let target : SocketAddress := { ip, port := w.freshPort.toUInt16 }
    let link : Link :=
      { caller := .peer w.peers.length, callee := .connection w.parties.length 0, origin, target }
    let opposite : Peer := { name := peer, link := w.links.length, side := .caller }
    let w : World :=
      { w with freshPort := w.freshPort + 2, peers := w.peers ++ [opposite] }
    let reset := link.reset .caller
    let ending := if resetFirst then reset.there.ending else none
    match Connection.ofStream { peer := origin, ending } settings (.ofMillis w.now) with
    | .error reason =>
        (w.addLink { reset with callee := .queue }, .settled (.notOpened reason))
    | .ok connection =>
        let single : Single := { connection, raisesOnMessage, raisesOnDisconnect }
        ((w.addLink link).addParty name (.single single),
          .settled (.opened connection.host connection.phase))

def callOn (w : World) (name : String) (r : Nat → Server.Request) (a : Connection.Action)
    (asServer : Bool) : World × Ticket :=
  match w.connection? name with
  | none => w.misplaced
  | some (p, c) =>
      match w.party? p with
      | some (.server s) =>
          w.request p s (r c) (if asServer then some (s.hostOf c) else none)
      | some (.single s) =>
          match s.act a with
          | some s' => (w.setParty p (.single s'), .call p s.connection.calls.length)
          | none => w.misplaced
      | _ => w.misplaced

def twice (begin : World → World × Ticket) (w : World) : World × Ticket :=
  let (w, first) := begin w
  let (w, second) := begin w
  (w, .both first second)

def closeOn (name : String) (w : World) : World × Ticket :=
  w.callOn name .close .close false

def listenerAddress? (w : World) (name : String) : Option SocketAddress :=
  match w.findParty? name with
  | some (_, .server s) => s.listeners.getLast?.map Listener.address
  | _ => (w.bareListener? name).map fun (_, l) => l.address

def targetOf? (w : World) : CallTarget → Option (String × SocketAddress)
  | .listener name ip? => do
      let address ← w.listenerAddress? name
      let ip := (ip?.getD address.ip).callable
      some (ip.text, { ip, port := address.port })
  | .address text port => do
      let ip ← Ip.ofText? text
      some (text, { ip, port })

def connectTo (client : String) (target : CallTarget) (w : World) : World × Ticket :=
  match w.client? client, w.targetOf? target with
  | some (p, s), some (text, address) =>
      let t := s.tasks.length
      match s.step w.behaviour (.begin (.connect text address.port)) with
      | none => w.misplaced
      | some s =>
          let w := w.setParty p (.client s)
          match s.tasks[t]? with
          | some (.connect ..) => ({ w with dials := w.dials ++ [⟨p, t, address⟩] }, .task p t none)
          | _ => (w, .task p t none)
  | _, _ => w.misplaced

def clientRequest (w : World) (client : String) (r : Client.Request) : World × Ticket :=
  match w.client? client with
  | some (p, s) =>
      match s.step w.behaviour (.begin r) with
      | some s' => (w.setParty p (.client s'), .task p s.tasks.length none)
      | none => w.misplaced
  | none => w.misplaced

def addListener (w : World) (name : String) (ip : Ip) (isStalled isClosed : Bool) :
    World × Ticket :=
  match w.bind ip 0 with
  | .error _ => w.misplaced
  | .ok address =>
      let w := w.usePort address.port
      let l : BareListener := { name, address, isStalled, isClosed }
      ({ w with listeners := w.listeners ++ [l] }, .settled .ok)

def acceptBare (w : World) (listener peer : String) : World × Ticket :=
  match w.bareListener? listener with
  | none => w.misplaced
  | some (i, l) =>
      match l.queue with
      | [] => w.answering .hung
      | n :: queue =>
          match w.links[n]? with
          | none => w.misplaced
          | some link =>
              let w := { w.setLink n { link with callee := .peer w.peers.length } with
                listeners := w.listeners.set i { l with queue }
                peers := w.peers ++ [{ name := peer, link := n, side := .callee }] }
              (w, .settled (.caller link.origin.host (w.holderName link.caller)))

def addPeer (w : World) (name : String) (target : CallTarget) (source : Option Ip) :
    World × Ticket :=
  match w.targetOf? target with
  | none => w.misplaced
  | some (_, address) =>
      match w.call (.peer w.peers.length) source address with
      | (w, .linked n) =>
          ({ w with peers := w.peers ++ [{ name, link := n, side := .caller }] }, .settled .ok)
      | (w, _) => w.answering .refused

def atPeer (w : World) (name : String) (f : Link → Side → Link × Answer) : World × Ticket :=
  match w.peer? name with
  | none => w.misplaced
  | some peer =>
      match w.links[peer.link]? with
      | none => w.misplaced
      | some link =>
          let (link, a) := f link peer.side
          (w.setLink peer.link link, .settled a)

def writeFrom (payload : List UInt8) (link : Link) (side : Side) : Link × Answer :=
  let out := link.outgoing side
  if out.reader = .refusing then
    (link, .connectionError (.io SocketFault.brokenPipe.message))
  else (link.setOutgoing (out.write payload) side, .ok)

/-- Reads some bytes, all that is there for zero, or everything up to the end of the stream. -/
def readAt (bytes : Option Nat) (link : Link) (side : Side) : Link × Answer :=
  let incoming := link.incoming side
  let n := (bytes.filter (0 < ·)).getD incoming.waiting.length
  let data := incoming.waiting.take n
  let incoming := { incoming with waiting := incoming.waiting.drop n }
  let isFull := data.length = n && bytes.any (0 < ·)
  if isFull then (link.setIncoming incoming side, .data data none)
  else if incoming.ending.isNone && bytes != some 0 then (link, .hung)
  else
    let rest := { incoming with ending := incoming.ending.map fun _ => .finished }
    (link.setIncoming rest side, .data data incoming.ending)

def begin (w : World) : ScenarioStep → World × Ticket
  | .server name config =>
      (w.addParty name (.server { config, now := w.now }),
        .settled (.created config.bindAddress config.reapIntervalMs.toNat))
  | .start name port autoReap =>
      match w.server? name, w.portOf? port with
      | some (p, s), some port => w.startServer p s port autoReap
      | _, _ => w.misplaced
  | .accept name connection secs =>
      match w.server? name with
      | none => w.misplaced
      | some (p, s) =>
          let w := { w with names := w.names ++ [(connection, p, s.tasks.length)] }
          w.request p s (.accept secs) none
  | .broadcast name payload => w.requestOf name (.broadcast payload)
  | .sendTo name address payload => w.requestOf name (.sendTo address payload)
  | .sendConnection c payload => w.callOn c (.send · payload) (.send payload) true
  | .subscribe name subscription =>
      match w.findParty? name with
      | some (p, party) => w.subscribeTo p party subscription
      | none => w.misplaced
  | .reap name => w.requestOf name .reap
  | .count name => w.requestOf name .count
  | .shutdown name => w.requestOf name .shutdown
  | .dropServer name =>
      match w.server? name with
      | some (p, _) => ({ w with leaving := w.leaving ++ [p] }, .settled .ok)
      | none => w.misplaced
  | .single c peer ip source settings onMessage onDisconnect resetFirst =>
      w.openSingle c peer ip source settings onMessage onDisconnect resetFirst
  | .listen c => w.callOn c .listen .listen false
  | .send c payload => w.callOn c (.send · payload) (.send payload) false
  | .close c => closeOn c w
  | .closeTwice c => twice (closeOn c) w
  | .describe c =>
      match w.connection? c with
      | none => w.misplaced
      | some (p, n) =>
          match (w.party? p).bind fun party => party.connection? n with
          | some connection => w.answering (.text connection.description)
          | none => w.misplaced
  | .client name config =>
      (w.addParty name (.client { config, now := w.now }), .settled .ok)
  | .connect name target => connectTo name target w
  | .connectTwice name target => twice (connectTo name target) w
  | .clientSend name payload => w.clientRequest name (.send payload)
  | .clientClose name => w.clientRequest name .close
  | .bareListener name ip isStalled isClosed => w.addListener name ip isStalled isClosed
  | .bareAccept listener peer => w.acceptBare listener peer
  | .peer name target source => w.addPeer name target source
  | .write name payload => w.atPeer name (writeFrom payload)
  | .read name bytes => w.atPeer name (readAt bytes)
  | .half name =>
      w.atPeer name fun link side => (link.setOutgoing (link.outgoing side).finish side, .ok)
  | .drop name =>
      w.atPeer name fun link side => (link.close side (link.isUnread side), .ok)
  | .reset name => w.atPeer name fun link side => (link.reset side, .ok)
  | .advance ms => ((w.passTo (w.now + ms)), .settled .ok)
  | .spawn .. => w.misplaced
  | .join task =>
      match w.tickets.find? fun (name, _) => name == task with
      | some (_, ticket) => (w, ticket)
      | none => w.misplaced

end World

end Fanout
