import Netclient.Router.Ops
/-!
# Router — the writes into a `nil` map

`AddEgressRoutingRule` writes `ruleTable[egressInfo.EgressID].rulesMap[...]`
and `AddIngressRoutingRule` writes `ruleTable[extPeerKey].rulesMap[...]`
without checking that the entry exists, where `RemoveRoutingRules` and
`RefreshEgressRangesOnIngressGw` check first. An absent entry reads as the
zero `rulesCfg`, whose map is `nil`, and the write panics.

`call_panics_iff` says exactly when a call panics: only these two
operations ever do, and each does precisely when its entry is absent (for
`AddIngressRoutingRule`, once the peer's prefix parses). A fresh manager
has no entries, so its first `AddEgressRoutingRule` of an allowed peer
takes the daemon down (`addEgress_fresh_panics`).
-/

namespace Netclient

namespace Router

/-- The write through an entry's `rulesMap` fails exactly when the entry is absent. -/
theorem RuleTable.setRules_eq_none_iff (t : RuleTable) (k k' : String) (rules : List RuleInfo) :
    t.setRules k k' rules = none ↔ t.get? k = none := by
  unfold RuleTable.setRules
  split <;> simp_all [Option.isSome_iff_ne_none]

variable (E : Env)

/-! ## The bodies that never panic -/

/-- The refresh's deletion pass checks each entry first and never panics. -/
theorem dropRanges_ne_panic (es : List (String × RulesCfg)) (t : RuleTable) (w : World) :
    (dropRanges E es t w).1 ≠ .panic := by
  induction es generalizing t w with
  | nil => simp [dropRanges]
  | cons e es ih =>
    obtain ⟨extKey, cfg⟩ := e
    unfold dropRanges
    cases cfg.rulesMap.get? extKey with
    | none => exact ih t w
    | some rules =>
      dsimp only
      cases dropRangeRules E extKey rules w with
      | mk w' r => cases r <;> simp [ih]

/-- Nor does the refresh's locked body. -/
theorem refreshRanges_ne_panic (upd : IngressInfo) (curr : List CidrText) (t : RuleTable)
    (w : World) : (refreshRanges E upd curr t w).1 ≠ .panic := by
  have hd := dropRanges_ne_panic E t.entries t w
  unfold refreshRanges
  generalize dropRanges E t.entries t w = r at hd
  obtain ⟨o, t', w'⟩ := r
  cases o <;> split_ifs <;> simp_all

/-- `RemoveRoutingRules` checks the entry first and never panics. -/
theorem removeBody_ne_panic (peerKey : String) (t : RuleTable) (w : World) :
    (removeBody E peerKey t w).1 ≠ .panic := by
  unfold removeBody
  split
  · simp
  · split <;> simp

/-- `DeleteRoutingRule` checks both lookups first and never panics. -/
theorem deleteBody_ne_panic (src dst : String) (t : RuleTable) (w : World) :
    (deleteBody E src dst t w).1 ≠ .panic := by
  unfold deleteBody
  split
  · simp
  · split
    · simp
    · split <;> simp

/-- `InsertIngressRoutingRules` writes a fresh entry and never panics. -/
theorem insertIngressBody_ne_panic (ext : ExtClientInfo) (rs : List CidrText) (t : RuleTable)
    (w : World) : (insertIngressBody E ext rs t w).1 ≠ .panic := by
  unfold insertIngressBody
  split
  · simp
  · split <;> simp

/-! ## The two that do -/

/-- `AddEgressRoutingRule`'s body panics exactly when the egress ID has no entry. -/
theorem addEgressBody_panic_iff (ei : EgressInfo) (peer : PeerRouteInfo) (t : RuleTable)
    (w : World) : (addEgressBody E ei peer t w).1 = .panic ↔ t.get? ei.egressID = none := by
  rw [← RuleTable.setRules_eq_none_iff t ei.egressID peer.peerKey []]
  unfold addEgressBody
  split <;> simp_all

/-- `AddIngressRoutingRule`'s body panics exactly when the peer's prefix parses and the ext client
has no entry. -/
theorem addIngressBody_panic_iff (key : String) (addr : IpText) (peer : PeerRouteInfo)
    (t : RuleTable) (w : World) :
    (addIngressBody E key addr peer t w).1 = .panic ↔
      (E.prefixIs6 (E.ipNetString peer.peerAddr)).isSome ∧ t.get? key = none := by
  unfold addIngressBody
  split
  · simp_all
  · rename_i is6 h
    rw [← RuleTable.setRules_eq_none_iff t key peer.peerKey [ingressPeerRule E (!is6) addr peer.peerAddr]]
    dsimp only
    split <;> simp_all

/-- When a call panics: an `AddEgressRoutingRule` of an allowed peer whose
egress ID has no entry, or an `AddIngressRoutingRule` whose peer prefix
parses and whose ext client has no entry. -/
def Call.panics (m : Mgr) : Call → Prop
  | .addEgress server ei peer =>
    peer.allow = true ∧ (m.fetchRuleTable E server E.egressTable).get? ei.egressID = none
  | .addIngress server key _ peer =>
    (E.prefixIs6 (E.ipNetString peer.peerAddr)).isSome ∧
      (m.fetchRuleTable E server E.ingressTable).get? key = none
  | _ => False

/-- **Exactly the unchecked writes panic.** For every manager state and every
call, the call panics iff it is one of the two `Add` operations and the
entry it writes through is absent from the server's table. -/
theorem call_panics_iff (m : Mgr) (rep : Replies) (c : Call) :
    (m.call E rep c).1 = .panic ↔ Call.panics E m c := by
  cases c with
  | insertEgress => simp [Mgr.call, Mgr.locked, Call.panics, insertEgressBody]
  | addEgress server ei peer =>
    simp only [Mgr.call, Mgr.addEgressRoutingRule, Call.panics]
    cases peer.allow
    · simp
    · simpa [Mgr.locked] using addEgressBody_panic_iff E ei peer _ _
  | insertIngress server ext rs =>
    simpa [Mgr.call, Mgr.locked, Call.panics] using
      insertIngressBody_ne_panic E ext rs (m.fetchRuleTable E server E.ingressTable) (m.world rep)
  | addIngress server key addr peer =>
    simpa [Mgr.call, Mgr.addIngressRoutingRule, Mgr.locked, Call.panics] using
      addIngressBody_panic_iff E key addr peer (m.fetchRuleTable E server E.ingressTable) (m.world rep)
  | refresh server upd =>
    simpa [Mgr.call, Mgr.locked, Call.panics, refreshBody] using
      refreshRanges_ne_panic E upd _ (m.fetchRuleTable E server E.ingressTable) (m.world rep)
  | remove server name key =>
    simpa [Mgr.call, Mgr.locked, Call.panics] using
      removeBody_ne_panic E key (m.fetchRuleTable E server name) (m.world rep)
  | delete server name src dst =>
    simpa [Mgr.call, Mgr.locked, Call.panics] using
      deleteBody_ne_panic E src dst (m.fetchRuleTable E server name) (m.world rep)
  | clean => simp [Mgr.call, Call.panics]

/-- A fresh manager's first `AddEgressRoutingRule` of an allowed peer panics,
whatever the environment, the kernel, the egress info and the peer. -/
theorem addEgress_fresh_panics (rules : List NfRule) (rep : Replies) (server : String)
    (ei : EgressInfo) (key : String) (addr : IPNet) :
    (Mgr.init E rules).run E [(.addEgress server ei ⟨key, addr, true⟩, rep)] = none := by
  have h : ((Mgr.init E rules).call E rep (.addEgress server ei ⟨key, addr, true⟩)).1 = .panic :=
    (call_panics_iff E _ rep _).2 ⟨rfl, by simp [Mgr.init, Mgr.fetchRuleTable]⟩
  simp only [Mgr.run]
  split
  · rfl
  · simp_all

end Router

end Netclient
