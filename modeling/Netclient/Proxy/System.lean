import Netclient.Proxy.Loop
import Mathlib.Logic.Function.Basic
/-!
# Proxy — endpoints, the registry, and `Reset`

The relay state of one peer: its endpoints (the `Proxy` objects, each with
the forwarding loop `Start` launched), the peer's entries in the registry's
public-key and hash indices, and the `Reset` calls in flight. `Proxy.Reset`
is a program of atomic steps here (`ResetPc`): one per registry call, each
atomic under the registry's lock, and one per lifecycle call. `Sys.step`
interleaves them with the loops' steps and the peer's removal.

`Start`, `Close` and the removal are not under `src/`; they are modelled
from the spec (`Endpoint.start`, `Endpoint.close`, `Sys.remove`). A socket is
named by the endpoint that bound it, so a `LocalConn` is an endpoint id.
-/

namespace Netclient

namespace Proxy

/-- One `Proxy` object of the peer. -/
structure Endpoint where
  config : Config
  /-- `RemoteConn`, set by `Start`. -/
  remoteConn : Option Nat
  /-- The forwarding loop `Start` launched; `none` before `Start`, or when it failed. -/
  loop : Option Loop
  /-- `Ctx` cancelled. -/
  cancelled : Bool
  /-- `LocalConn` closed. -/
  connClosed : Bool
  deriving DecidableEq, Repr

instance : Inhabited Endpoint := ⟨⟨⟨none, 0, false, false⟩, none, none, false, false⟩⟩

/-- `New(config)`: a fresh context, no socket and no loop yet. -/
def Endpoint.new (cfg : Config) : Endpoint := ⟨cfg, none, none, false, false⟩

/-- Modelled from the spec: `Proxy.Start` succeeding binds `localConn`, points
the tunnel's peer endpoint at it, and launches the forwarding loop; when it
fails no loop is started. -/
def Endpoint.start (e : Endpoint) : Endpoint :=
  { e with remoteConn := e.config.peerEndpoint, loop := some Loop.init }

/-- Modelled from the spec: `Proxy.Close` cancels the lifecycle token and
releases `localConn`; it is idempotent. -/
def Endpoint.close (e : Endpoint) : Endpoint := { e with cancelled := true, connClosed := true }

/-- An endpoint whose socket and loop are live: started, and not closed. -/
def Endpoint.live (e : Endpoint) : Bool := e.loop.isSome && !e.connClosed

/-- What the endpoint lets its loop see: the `select` sees the context as it
is, and `Read` on a closed socket only fails. -/
def Endpoint.offers (e : Endpoint) : Input → Bool
  | .select c => c == e.cancelled
  | .read (some _) => !e.connClosed
  | _ => true

/-- The peer's entry in the public-key index (`models.Conn`): the fields
`Reset` writes. -/
structure Conn where
  config : Config
  /-- `LocalConn`: the endpoint whose socket it is. -/
  localConn : Nat
  /-- `ResetConn`: the endpoint whose `Reset` it is. -/
  resetConn : Nat
  /-- `StopConn`: the endpoint whose `Close` it is. -/
  stopConn : Nat
  deriving DecidableEq, Repr

/-- `pullLatestConfig` finding the peer's entry `c`: the endpoint's config
with the entry's `PeerEndpoint` and `TurnConn`. -/
def Config.pullLatestConfig (cfg : Config) (c : Conn) : Config :=
  { cfg with peerEndpoint := c.config.peerEndpoint, turnConn := c.config.turnConn }

/-- The peer's entry in the hash index: the field `Reset` writes. -/
structure PeerInfo where
  localConn : Nat
  deriving DecidableEq, Repr

/-- Where a `Reset` call stands: before each atomic step of `Proxy.Reset`. -/
inductive ResetPc
  | close
  /-- The `PeerEndpoint == nil` check. -/
  | check
  /-- `pullLatestConfig`'s `GetPeer`. -/
  | pull
  /-- `p = New(p.Config); p.Start()`. -/
  | start
  | getPeer
  /-- `SavePeer` of the entry read by `GetPeer`, updated. -/
  | savePeer (c : Conn)
  | getByHash
  /-- `SavePeerByHash` of the entry read by `GetPeerInfoByHash`, updated. -/
  | saveByHash (i : PeerInfo)
  /-- `DumpSignalChan <- struct{}{}`. -/
  | signal
  | done
  deriving DecidableEq, Repr

/-- A `Reset` call: its receiver `p`, which `p = New(p.Config)` rebinds to the
new endpoint, and where it stands. -/
structure ResetCall where
  p : Nat
  pc : ResetPc
  deriving DecidableEq, Repr

/-- The relay state of the peer. -/
structure Sys where
  keyIdx : Option Conn
  hashIdx : Option PeerInfo
  /-- The endpoints, `0 … next - 1`. -/
  eps : Nat → Endpoint
  next : Nat
  /-- The `Reset` calls made, `0 … calls - 1`. -/
  resets : Nat → ResetCall
  calls : Nat
  /-- The outbound writes, with the endpoint whose loop made each. -/
  sent : List (Nat × Write)

/-- What can happen next. -/
inductive Event
  /-- A control-plane handler calls `Reset` on endpoint `p`. -/
  | reset (p : Nat)
  /-- Reset call `t` takes its next step; `ok` is the outcome of its `Start`. -/
  | resetStep (t : Nat) (ok : Bool)
  /-- The peer is removed from the registry. -/
  | remove
  /-- Endpoint `q`'s loop takes input `i`. -/
  | loop (q : Nat) (i : Input)
  deriving DecidableEq, Repr

namespace Sys

/-- Endpoint `q` replaced. -/
def setEp (s : Sys) (q : Nat) (e : Endpoint) : Sys := { s with eps := Function.update s.eps q e }

/-- Reset call `t` moved to `pc`. -/
def goto (s : Sys) (t : Nat) (pc : ResetPc) : Sys :=
  { s with resets := Function.update s.resets t { s.resets t with pc := pc } }

/-- One step of Reset call `t`: `Proxy.Reset` and `Proxy.pullLatestConfig`. -/
def resetStep (s : Sys) (t : Nat) (ok : Bool) : Option Sys :=
  match s.resets t with
  | ⟨p, pc⟩ => match pc with
  | .close => some ((s.setEp p (s.eps p).close).goto t .check)
  | .check => some (s.goto t (if (s.eps p).config.peerEndpoint.isSome then .pull else .done))
  | .pull => some <| match s.keyIdx with
    | some c => (s.setEp p { s.eps p with config := (s.eps p).config.pullLatestConfig c }).goto t .start
    -- "couldn't perform reset" is logged, and the reset goes on
    | none => s.goto t .start
  | .start =>
    let e := Endpoint.new (s.eps p).config
    some { s with
      eps := Function.update s.eps s.next (if ok then e.start else e)
      next := s.next + 1
      resets := Function.update s.resets t ⟨s.next, if ok then .getPeer else .done⟩ }
  | .getPeer => some <| s.goto t <| match s.keyIdx with
    | some c =>
      .savePeer { c with config := (s.eps p).config, localConn := p, resetConn := p, stopConn := p }
    | none => .getByHash
  | .savePeer c => some ({ s with keyIdx := some c }.goto t .getByHash)
  | .getByHash => some <| s.goto t <| match s.hashIdx with
    | some i => .saveByHash { i with localConn := p }
    | none => .signal
  | .saveByHash i => some ({ s with hashIdx := some i }.goto t .signal)
  | .signal => some (s.goto t .done)
  | .done => none

/-- Modelled from the spec: the peer's removal from the mesh calls its stop
handle and deletes both index entries. -/
def remove (s : Sys) : Sys :=
  let s := match s.keyIdx with
    | some c => s.setEp c.stopConn (s.eps c.stopConn).close
    | none => s
  { s with keyIdx := none, hashIdx := none }

@[simp] theorem remove_resets (s : Sys) : s.remove.resets = s.resets := by
  unfold remove; split <;> rfl

@[simp] theorem remove_calls (s : Sys) : s.remove.calls = s.calls := by
  unfold remove; split <;> rfl

@[simp] theorem remove_next (s : Sys) : s.remove.next = s.next := by
  unfold remove; split <;> rfl

/-- A step of endpoint `q`'s forwarding loop, recording its writes. -/
def loopStep (pp : PreSend) (s : Sys) (q : Nat) (i : Input) : Option Sys :=
  match (s.eps q).loop with
  | none => none
  | some l =>
    if (s.eps q).offers i then
      (l.step pp (s.eps q).config (s.eps q).remoteConn i).map fun (l', ws) =>
        { s.setEp q { s.eps q with loop := some l' } with sent := s.sent ++ ws.map (q, ·) }
    else none

/-- The relay taking one event. -/
def step (pp : PreSend) (s : Sys) : Event → Option Sys
  | .reset p => if p < s.next then
      some { s with resets := Function.update s.resets s.calls ⟨p, .close⟩, calls := s.calls + 1 }
    else none
  | .resetStep t ok => if t < s.calls then s.resetStep t ok else none
  | .remove => some s.remove
  | .loop q i => s.loopStep pp q i

/-- The relay taking the events in order. -/
def run (pp : PreSend) : Sys → List Event → Option Sys
  | s, [] => some s
  | s, e :: es => (s.step pp e).bind (run pp · es)

end Sys

end Proxy

end Netclient
