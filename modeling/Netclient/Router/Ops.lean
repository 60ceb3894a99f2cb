import Netclient.Router.Manager
/-!
# Router — the manager's operations, one after another

`Mgr` is the `nftablesManager` with the package's globals and the kernel's
ruleset. An operation fetches its server's table (`fetchRuleTable`), runs its
locked body, and saves the table it fetched (`saveRules`) —
`CleanRoutingRules` deletes the table instead. Here the three steps run back
to back (`Mgr.locked`); the interleavings of `n.mux`'s steps are in
`Netclient.Router.Interleave`. A body that panics still has its deferred
`SaveRules` run before the panic takes the daemon down; `Mgr.run` stops there.
-/

namespace Netclient

namespace Router

/-- The kernel's replies to one call's `Flush`es: `ins` for those committing an
insertion, `del` for those of `deleteRule`; past their end every `Flush`
succeeds. -/
structure Replies where
  ins : List Bool
  del : List Bool

/-- Every `Flush` succeeds. -/
def Replies.allOk : Replies := ⟨[], []⟩

/-- Ext client `key` at `10.1.0.n`, behind gateway `10.1.0.1`. -/
def extAt (key : String) (n : UInt8) : ExtClientInfo :=
  ⟨⟨[10, 1, 0, 1], [255, 255, 255, 255]⟩, ⟨[10, 1, 0, 0], [255, 255, 0, 0]⟩,
    ⟨[10, 1, 0, n], [255, 255, 255, 255]⟩, key, [], false⟩

/-- The `nftablesManager`, the package's globals, and the kernel's ruleset. -/
structure Mgr where
  ingRules : GoMap String RuleTable
  engressRules : GoMap String RuleTable
  /-- `currEgressRangesMap`. -/
  currEgressRanges : GoMap String (List CidrText)
  /-- `nfJumpRules`. -/
  jumpRules : List RuleInfo
  rules : List NfRule

/-- A call to one of the manager's operations. -/
inductive Call
  | insertEgress (server : String) (ei : EgressInfo)
  | addEgress (server : String) (ei : EgressInfo) (peer : PeerRouteInfo)
  | insertIngress (server : String) (ext : ExtClientInfo) (egressRanges : List CidrText)
  | addIngress (server extPeerKey : String) (extPeerAddr : IpText) (peer : PeerRouteInfo)
  | refresh (server : String) (upd : IngressInfo)
  | remove (server tableName peerKey : String)
  | delete (server tableName srcPeerKey dstPeerKey : String)
  | clean (server tableName : String)

namespace Mgr

variable (E : Env)

/-- A manager after `init()`, over a kernel ruleset. -/
def init (rules : List NfRule) : Mgr :=
  ⟨GoMap.empty, GoMap.empty, GoMap.empty, nfFilterJumpRules E ++ nfNatJumpRules E, rules⟩

/-- The world a body of this manager sees, with the kernel's replies. -/
def world (m : Mgr) (rep : Replies) : World :=
  ⟨m.rules, rep.ins, rep.del, m.currEgressRanges, m.jumpRules⟩

/-- The manager after a body left the world `w`. -/
def withWorld (m : Mgr) (w : World) : Mgr :=
  { m with rules := w.rules, currEgressRanges := w.currEgressRanges, jumpRules := w.jumpRules }

/-- `FetchRuleTable`: the server's table, or a fresh one; a name other than
the two tables gives the `nil` table, which reads as empty. -/
def fetchRuleTable (m : Mgr) (server tableName : String) : RuleTable :=
  if tableName = E.ingressTable then (m.ingRules.get? server).getD GoMap.empty
  else if tableName = E.egressTable then (m.engressRules.get? server).getD GoMap.empty
  else GoMap.empty

/-- `SaveRules`. -/
def saveRules (m : Mgr) (server tableName : String) (t : RuleTable) : Mgr :=
  if tableName = E.ingressTable then { m with ingRules := m.ingRules.insert server t }
  else if tableName = E.egressTable then { m with engressRules := m.engressRules.insert server t }
  else m

/-- `DeleteRuleTable`. -/
def deleteRuleTable (m : Mgr) (server tableName : String) : Mgr :=
  if tableName = E.ingressTable then { m with ingRules := m.ingRules.erase server }
  else if tableName = E.egressTable then { m with engressRules := m.engressRules.erase server }
  else m

/-- An operation's three steps back to back: fetch, the body, and the
deferred save of the table the body was given. -/
def locked (m : Mgr) (rep : Replies) (server tableName : String)
    (body : RuleTable → World → Outcome × RuleTable × World) : Outcome × Mgr :=
  let (o, t, w) := body (m.fetchRuleTable E server tableName) (m.world rep)
  (o, (m.withWorld w).saveRules E server tableName t)

/-- `CleanRoutingRules`: fetch, the body, and the deferred `DeleteRuleTable`. -/
def cleanRoutingRules (m : Mgr) (rep : Replies) (server tableName : String) : Mgr :=
  let (_, _, w) := cleanBody E (m.fetchRuleTable E server tableName) (m.world rep)
  (m.withWorld w).deleteRuleTable E server tableName

/-- `AddEgressRoutingRule`: nothing for a peer that is not allowed. -/
def addEgressRoutingRule (m : Mgr) (rep : Replies) (server : String) (ei : EgressInfo)
    (peer : PeerRouteInfo) : Outcome × Mgr :=
  if !peer.allow then (.ok, m) else m.locked E rep server E.egressTable (addEgressBody E ei peer)

/-- `AddIngressRoutingRule`. -/
def addIngressRoutingRule (m : Mgr) (rep : Replies) (server extPeerKey : String)
    (extPeerAddr : IpText) (peer : PeerRouteInfo) : Outcome × Mgr :=
  m.locked E rep server E.ingressTable (addIngressBody E extPeerKey extPeerAddr peer)

/-- One call. -/
def call (m : Mgr) (rep : Replies) : Call → Outcome × Mgr
  | .insertEgress server ei => m.locked E rep server E.egressTable (insertEgressBody E ei)
  | .addEgress server ei peer => m.addEgressRoutingRule E rep server ei peer
  | .insertIngress server ext rs =>
    m.locked E rep server E.ingressTable (insertIngressBody E ext rs)
  | .addIngress server key addr peer => m.addIngressRoutingRule E rep server key addr peer
  | .refresh server upd => m.locked E rep server E.ingressTable (refreshBody E server upd)
  | .remove server name key => m.locked E rep server name (removeBody E key)
  | .delete server name src dst => m.locked E rep server name (deleteBody E src dst)
  | .clean server name => (.ok, m.cleanRoutingRules E rep server name)

/-- The calls in order, each with the kernel's replies; `none` once one
panics and takes the daemon down. -/
def run : Mgr → List (Call × Replies) → Option Mgr
  | m, [] => some m
  | m, (c, rep) :: cs =>
    match m.call E rep c with
    | (.panic, _) => none
    | (_, m') => run m' cs

end Mgr

end Router

end Netclient
