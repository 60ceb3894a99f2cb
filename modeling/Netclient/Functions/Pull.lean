import Netclient.Common.GoMap
/-!
# Functions — the peers `Pull` installs

`Pull` fetches a network's node from its server, stores it in the node map
under its network, writes the config, and hands `wireguard.UpdateWgPeers` a
peer list. The list starts with the pulled node's peers and then ranges over
the node map, appending the peers of every connected node. The map already
holds the pulled node, so its peers come once more when it is connected, and
come at all when it is not (`pull_peers_eq`): the list is the connected
nodes' peers, each node's once, only when the pulled node has no peers.
-/

namespace Netclient

namespace Functions

/-- A `wgtypes.PeerConfig`, by its public key. -/
structure PeerConfig where
  publicKey : String
  deriving DecidableEq, Repr

/-- A `config.Node`, with the fields `Pull` reads. -/
structure Node where
  network : String
  connected : Bool
  peers : List PeerConfig
  deriving DecidableEq, Repr

/-- What `Pull`'s calls to the outside return: `Authenticate`'s token or
error, the server's reply to the `GET` of the node, as `config.ConvertNode`
converts it, or the error, and `config.WriteNodeConfig`'s error. -/
structure PullReplies where
  authenticate : Except String String
  getNode : Except String Node
  writeNodeConfig : Option String

/-- Modelled from the spec: `config.GetNode`, the node map's entry for the
network, or the zero `Node`. -/
def getNode (nodes : GoMap String Node) (network : String) : Node :=
  (nodes.get? network).getD ⟨"", false, []⟩

/-- The `for _, node := range config.GetNodes()` loop of `Pull`: the peers
of every connected node appended to `peers`. -/
def appendConnected (peers : List PeerConfig) (nodes : List Node) : List PeerConfig :=
  nodes.foldl (fun peers node => if node.connected then peers ++ node.peers else peers) peers

/-- `Pull` up to `wireguard.UpdateWgPeers`: the node map after the call
(`config.UpdateNodeMap` has stored the pulled node even when
`WriteNodeConfig` then fails), and the error returned or the peer list
handed to `UpdateWgPeers`. -/
def pull (nodes : GoMap String Node) (network : String) (rep : PullReplies) :
    GoMap String Node × Except String (List PeerConfig) :=
  if (getNode nodes network).network = "" then (nodes, .error "no such network")
  else match rep.authenticate with
    | .error e => (nodes, .error e)
    | .ok _ => match rep.getNode with
      | .error e => (nodes, .error e)
      | .ok newNode =>
        let nodes := nodes.insert newNode.network newNode
        match rep.writeNodeConfig with
        | some e => (nodes, .error e)
        | none => (nodes, .ok (appendConnected newNode.peers nodes.values))

/-- The peers of the map's connected nodes, each node's once, in the map's
order. -/
def connectedPeers (nodes : GoMap String Node) : List PeerConfig :=
  (nodes.values.filter (·.connected)).flatMap (·.peers)

theorem appendConnected_eq (nodes : List Node) :
    ∀ peers, appendConnected peers nodes =
      peers ++ (nodes.filter (·.connected)).flatMap (·.peers) := by
  induction nodes with
  | nil => simp [appendConnected]
  | cons node nodes ih =>
    intro peers
    simp only [appendConnected, List.foldl_cons] at ih ⊢
    cases h : node.connected <;> simp [ih, h]

/-- **The peers `Pull` installs.** For every node map and every node the
server returns for the network, once the node's network is known,
`Authenticate` has succeeded and the config is written, `Pull` stores the
node and hands `UpdateWgPeers` the node's own peers followed by the
connected nodes' peers of the updated map, the node among them. -/
theorem pull_peers_eq {nodes : GoMap String Node} {network : String} {rep : PullReplies}
    {newNode : Node} (hnet : (getNode nodes network).network ≠ "")
    (hauth : ∃ token, rep.authenticate = .ok token) (hget : rep.getNode = .ok newNode)
    (hwrite : rep.writeNodeConfig = none) :
    pull nodes network rep = (nodes.insert newNode.network newNode,
      .ok (newNode.peers ++ connectedPeers (nodes.insert newNode.network newNode))) := by
  obtain ⟨token, hauth⟩ := hauth
  simp only [pull, if_neg hnet, hauth, hget, hwrite, appendConnected_eq, connectedPeers]

/-- One network, `"net"`, its node connected with a single peer. -/
def oneNode : GoMap String Node := GoMap.empty.insert "net" ⟨"net", true, [⟨"p"⟩]⟩

/-- The server's reply: the same node. -/
def samePull : PullReplies := ⟨.ok "token", .ok ⟨"net", true, [⟨"p"⟩]⟩, none⟩

/-- Pulling the only network, connected with one peer, installs that peer
twice; the connected nodes' peers are the one. -/
theorem pull_installs_peer_twice :
    (pull oneNode "net" samePull).2 = .ok [⟨"p"⟩, ⟨"p"⟩] ∧
      connectedPeers (oneNode.insert "net" ⟨"net", true, [⟨"p"⟩]⟩) = [⟨"p"⟩] :=
  ⟨by rw [pull_peers_eq (by decide) ⟨"token", rfl⟩ rfl rfl]; rfl, by decide⟩

end Functions

end Netclient
