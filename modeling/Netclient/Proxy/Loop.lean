import Mathlib.Data.List.Basic
/-!
# Proxy — the forwarding loop

`Proxy.toRemote` reads one datagram at a time from the endpoint's local
socket into a buffer, runs the pre-send transform when the peer is relayed,
and writes the result to the remote address, through the TURN transport or
through the shared uplink. The loop is a state machine here (`Loop.step`),
driven by what its environment offers: the `select` on the endpoint's
context, the result of the `Read`, and the write. A run over a session of
reads (`Loop.run`, `session`) says what goes out for every sequence of
datagrams.

The transform hands back a buffer of its own, and the next datagram is read
into it (`buf, n, … = ProcessPacketBeforeSending(buf, n, …)`), so what is
forwarded depends on the length of the buffers the transform returns:
`run_session` says exactly what is sent, and `toRemote_forwards` is its form
for a transform that never shrinks the buffer below `bufLen`.
-/

namespace Netclient

namespace Proxy

/-- The fields of a peer's `models.Proxy` config that the relay reads. -/
structure Config where
  /-- `PeerEndpoint`, the peer's real address; `nil` is `none`. -/
  peerEndpoint : Option Nat
  /-- `TurnConn`, the TURN transport of the peer. -/
  turnConn : Nat
  proxyStatus : Bool
  usingTurn : Bool
  deriving DecidableEq, Repr

/-- The socket a write goes out through. -/
inductive Via
  | turn (conn : Nat)
  | uplink
  deriving DecidableEq, Repr

/-- One outbound write: the socket, the destination and the bytes. -/
structure Write where
  via : Via
  /-- `RemoteConn`; `nil` is `none`. -/
  dst : Option Nat
  payload : List UInt8
  deriving DecidableEq, Repr

/-- `packet.ProcessPacketBeforeSending` with the contract the relay relies on:
the first `newLength` bytes of the buffer it returns are the transform of the
datagram `buf[:n]` it was given. -/
structure PreSend where
  /-- The new buffer and the new length. -/
  process : List UInt8 → Nat → List UInt8 × Nat
  /-- The encoding applied to a datagram. -/
  transform : List UInt8 → List UInt8
  process_le : ∀ buf n, n ≤ buf.length → (process buf n).2 ≤ (process buf n).1.length
  process_take : ∀ buf n, n ≤ buf.length →
    (process buf n).1.take (process buf n).2 = transform (buf.take n)

/-- The size of the buffer `toRemote` allocates. -/
def bufLen : Nat := 65000

/-- `LocalConn.Read(buf)` receiving datagram `d`: the first `len(buf)` bytes of
`d` land at the front of `buf`, the rest of the datagram is discarded. -/
def readInto (buf d : List UInt8) : List UInt8 × Nat :=
  (d.take buf.length ++ buf.drop d.length, min d.length buf.length)

/-- Where the loop stands, with the buffer it holds. -/
inductive Loop
  /-- At the `select` on the context. -/
  | top (buf : List UInt8)
  /-- Blocked in `LocalConn.Read`. -/
  | reading (buf : List UInt8)
  /-- A datagram of `n` bytes read, its write not yet made. -/
  | sending (buf : List UInt8) (n : Nat)
  | exited
  deriving DecidableEq, Repr

/-- What the environment offers the loop next. -/
inductive Input
  /-- The `select`, seeing the context cancelled or not. -/
  | select (cancelled : Bool)
  /-- `Read` returning a datagram, or an error. -/
  | read (r : Option (List UInt8))
  /-- The write; its result is only logged. -/
  | send
  deriving DecidableEq, Repr

/-- The socket a write of this config goes through. -/
def Config.via (cfg : Config) : Via :=
  if cfg.usingTurn then .turn cfg.turnConn else .uplink

/-- The pre-send processing: the transform when the peer is relayed or uses TURN. -/
def preSend (pp : PreSend) (cfg : Config) (buf : List UInt8) (n : Nat) : List UInt8 × Nat :=
  if cfg.proxyStatus || cfg.usingTurn then pp.process buf n else (buf, n)

/-- One step of `Proxy.toRemote` for the endpoint with config `cfg` writing to
`remote`; `none` when the input is not the one the loop waits for. -/
def Loop.step (pp : PreSend) (cfg : Config) (remote : Option Nat) : Loop → Input → Option (Loop × List Write)
  | .top buf, .select c => some (if c then .exited else .reading buf, [])
  | .reading buf, .read (some d) => some (.sending (readInto buf d).1 (readInto buf d).2, [])
  | .reading _, .read none => some (.exited, [])
  | .sending buf n, .send =>
    let out := preSend pp cfg buf n
    some (.top out.1, [⟨cfg.via, remote, out.1.take out.2⟩])
  | _, _ => none

/-- The loop taking the inputs in order, with the writes it makes. -/
def Loop.run (pp : PreSend) (cfg : Config) (remote : Option Nat) : Loop → List Input → Option (Loop × List Write)
  | l, [] => some (l, [])
  | l, i :: is => (l.step pp cfg remote i).bind fun (l', w) =>
      (Loop.run pp cfg remote l' is).map fun (l'', ws) => (l'', w ++ ws)

/-- A session: the context is never cancelled, the reads deliver `ds` in
order and then fail. -/
def session : List (List UInt8) → List Input
  | [] => [.select false, .read none]
  | d :: ds => .select false :: .read (some d) :: .send :: session ds

/-- A loop starting at `top`. -/
def Loop.init : Loop := .top (List.replicate bufLen 0)

/-- The write `toRemote` makes for a datagram that fits its buffer. -/
def outbound (pp : PreSend) (cfg : Config) (remote : Option Nat) (d : List UInt8) : Write :=
  ⟨cfg.via, remote, if cfg.proxyStatus || cfg.usingTurn then pp.transform d else d⟩

/-! ## One iteration -/

variable {pp : PreSend} {cfg : Config} {remote : Option Nat}

/-- An exited loop takes no further step: no read and no write. -/
@[simp] theorem step_exited (i : Input) : Loop.step pp cfg remote .exited i = none := by
  cases i <;> rfl

@[simp] theorem run_nil (l : Loop) : Loop.run pp cfg remote l [] = some (l, []) := rfl

/-- A datagram that fits the buffer lands whole at its front. -/
theorem readInto_of_le {buf d : List UInt8} (h : d.length ≤ buf.length) :
    readInto buf d = (d ++ buf.drop d.length, d.length) := by
  simp [readInto, List.take_of_length_le h, Nat.min_eq_left h]

/-- **One iteration of the loop**: the datagram is read into the buffer, the
pre-send processing runs, and one write goes out; the next iteration starts
from the buffer the processing handed back. -/
theorem run_session_cons (buf d : List UInt8) (ds : List (List UInt8)) :
    Loop.run pp cfg remote (.top buf) (session (d :: ds)) =
      (Loop.run pp cfg remote (.top (preSend pp cfg (readInto buf d).1 (readInto buf d).2).1)
        (session ds)).map fun (l, ws) =>
          (l, ⟨cfg.via, remote, (preSend pp cfg (readInto buf d).1 (readInto buf d).2).1.take
            (preSend pp cfg (readInto buf d).1 (readInto buf d).2).2⟩ :: ws) := by
  simp only [session, Loop.run, Loop.step, Bool.false_eq_true, if_false, Option.some_bind,
    Option.map_map]
  rfl

/-- The session ends with the read error: the loop exits having written nothing more. -/
@[simp] theorem run_session_nil (buf : List UInt8) :
    Loop.run pp cfg remote (.top buf) (session []) = some (.exited, []) := rfl

/-! ## What goes out -/

/-- The buffer the processing returns is at least as long as `newLength`, and
the pre-send processing leaves the first `n` bytes of a datagram that fits as
its transform when relaying, and as they are otherwise. -/
theorem preSend_take (buf d : List UInt8) :
    let out := preSend pp cfg (d ++ buf.drop d.length) d.length
    out.2 ≤ out.1.length ∧
      out.1.take out.2 = if cfg.proxyStatus || cfg.usingTurn then pp.transform d else d := by
  have hlen : d.length ≤ (d ++ buf.drop d.length).length := by simp
  by_cases hr : cfg.proxyStatus || cfg.usingTurn
  · simp only [preSend, hr, if_true]
    exact ⟨pp.process_le _ _ hlen, by rw [pp.process_take _ _ hlen, List.take_left' rfl]⟩
  · simp [preSend, hr]

/-- **The loop forwards every datagram of the session, in order, and exits.**
As long as the buffer the datagrams are read into is at least `bufLen` long —
which the transform keeps when it never returns a shorter buffer — the `i`-th
write carries the transform of `dᵢ` (or `dᵢ` itself when the peer is neither
relayed nor on TURN), through the config's socket to `remote`. -/
theorem run_session
    (hkeep : ∀ buf n, bufLen ≤ buf.length → n ≤ buf.length → bufLen ≤ (pp.process buf n).1.length)
    (ds : List (List UInt8)) (hds : ∀ d ∈ ds, d.length ≤ bufLen) :
    ∀ buf : List UInt8, bufLen ≤ buf.length →
      Loop.run pp cfg remote (.top buf) (session ds) = some (.exited, ds.map (outbound pp cfg remote)) := by
  induction ds with
  | nil => intro buf _; rfl
  | cons d ds ih =>
    intro buf hbuf
    have hd : d.length ≤ buf.length := (hds d (by simp)).trans hbuf
    have hlen : (d ++ buf.drop d.length).length = buf.length := by simp; omega
    have hnext : bufLen ≤ (preSend pp cfg (d ++ buf.drop d.length) d.length).1.length := by
      unfold preSend
      split
      · exact hkeep _ _ (hlen ▸ hbuf) (by simp)
      · exact hlen ▸ hbuf
    rw [run_session_cons, readInto_of_le hd, ih (fun d' h' => hds d' (by simp [h'])) _ hnext]
    simp [outbound, (preSend_take buf d).2]

/-- **`toRemote` forwards the session exactly**, for a transform that never
hands back a buffer shorter than the one `toRemote` allocates: `k` writes, in
read order, the `i`-th the transform of `dᵢ` when the peer is relayed or on
TURN and `dᵢ` otherwise, through the TURN transport or the uplink to
`remote`; the read error ends the loop. -/
theorem toRemote_forwards (pp : PreSend) (cfg : Config) (remote : Option Nat)
    (hkeep : ∀ buf n, bufLen ≤ buf.length → n ≤ buf.length → bufLen ≤ (pp.process buf n).1.length)
    (ds : List (List UInt8)) (hds : ∀ d ∈ ds, d.length ≤ bufLen) :
    Loop.run pp cfg remote Loop.init (session ds) = some (.exited, ds.map (outbound pp cfg remote)) :=
  run_session hkeep ds hds _ (by simp [Loop.init])

/-- The pre-send processing that leaves the buffer as it is. -/
def PreSend.keep : PreSend where
  process buf n := (buf, n)
  transform := id
  process_le _ _ h := h
  process_take _ _ _ := rfl

/-- An unprocessed relayed peer, writing through the uplink. -/
def relayed : Config := ⟨some 1, 0, true, false⟩

/-- A transform that flips every bit of the buffer and keeps its length. -/
def PreSend.flip : PreSend where
  process buf n := (buf.map (· ^^^ 0xff), n)
  transform := List.map (· ^^^ 0xff)
  process_le _ _ h := by simpa using h
  process_take _ _ _ := List.map_take _ _ _ |>.symm

/-- Three datagrams through the bit-flipping transform, the later ones
shorter, each read into the buffer the previous write left behind. -/
theorem toRemote_forwards_flipped :
    Loop.run .flip relayed (some 7) Loop.init (session [[1, 2, 3], [4, 5], [6]]) =
      some (.exited, [outbound .flip relayed (some 7) [1, 2, 3],
        outbound .flip relayed (some 7) [4, 5], outbound .flip relayed (some 7) [6]]) :=
  toRemote_forwards .flip relayed (some 7) (fun _ _ h _ => by simpa [PreSend.flip] using h)
    [[1, 2, 3], [4, 5], [6]] (by decide)

/-- A transform that meets the contract and hands back a buffer cut to the
new length. -/
def PreSend.cut : PreSend where
  process buf n := (buf.take n, n)
  transform := id
  process_le _ _ h := by simp [h]
  process_take _ _ _ := List.take_take _ _ _ ▸ by simp

/-- **The second datagram is read into the first one's buffer.** With a
transform that returns a one-byte buffer for a one-byte datagram, the
two-byte datagram that follows is cut to one byte: a transform that meets
its contract can still make `toRemote` forward a datagram cut short. -/
theorem toRemote_truncates_after_shrink :
    ¬ ∀ (pp : PreSend) (cfg : Config) (remote : Option Nat) (ds : List (List UInt8)),
      (∀ d ∈ ds, d.length ≤ bufLen) →
        Loop.run pp cfg remote Loop.init (session ds) = some (.exited, ds.map (outbound pp cfg remote)) := by
  intro h
  have := h .cut relayed (some 7) [[0], [1, 2]] (by decide)
  have hfit : [(0 : UInt8)].length ≤ (List.replicate bufLen (0 : UInt8)).length := by
    rw [List.length_replicate]; decide
  rw [Loop.init, run_session_cons, readInto_of_le hfit, run_session_cons] at this
  simp only [preSend, relayed, PreSend.cut, Bool.true_or, if_true, List.take_left' rfl] at this
  exact absurd this (by decide)

end Proxy

end Netclient
