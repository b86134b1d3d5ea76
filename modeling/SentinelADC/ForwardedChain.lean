import SentinelADC.RequestHeaders
import Mathlib.Data.List.TakeWhile

/-!
# The forwarding chain

`addProxyHeaders` of `proxy/proxyUtils.js`, and what a request carries after it
has gone through several gateways.  The address that is appended to the chain
comes from `getClientIp`, which reads the beginning of the same chain.
-/

namespace SentinelADC

/-- What `addProxyHeaders` reads of a request. -/
structure ProxiedRequest extends ClientRequest where
  protocol : String
  /-- `req.headers.host`. -/
  host : Option String
  requestId : Option String
  correlationId : Option String
  /-- `req.headers['x-request-id']`. -/
  xRequestId : Option String
  /-- `req.headers['x-correlation-id']`. -/
  xCorrelationId : Option String

/-- `addProxyHeaders`: the headers set on the request to the backend. -/
def addProxyHeaders (req : ProxiedRequest) : Headers :=
  let clientIp := getClientIp req.toClientRequest
  let forwardedFor :=
    match truthy req.xForwardedFor with
    | some existingForwarded => existingForwarded ++ ", " ++ clientIp
    | none => clientIp
  let requestId := (truthy req.requestId).or (truthy req.xRequestId)
  let correlationId := (truthy req.correlationId).or (truthy req.xCorrelationId)
  [("X-Forwarded-For", forwardedFor), ("X-Real-IP", clientIp),
    ("X-Forwarded-Proto", req.protocol), ("X-Forwarded-Host", req.host.getD "")] ++
  (requestId.toList.map (fun id => ("x-request-id", id)) ++
    correlationId.toList.map (fun id => ("x-correlation-id", id)))

/-- The address of a socket's peer as Node writes it. -/
structure PeerAddress where
  text : String
  ne_empty : text ≠ ""
  plain : ∀ c ∈ text.toList, c ≠ ',' ∧ isJsSpace c = false

/-- A chain with one more entry. -/
def appendEntry (chain : Option String) (entry : String) : String :=
  match truthy chain with
  | some existing => existing ++ ", " ++ entry
  | none => entry

/-- The first entry of a chain, `chain.split(',')[0].trim()`. -/
def firstEntry (chain : String) : String :=
  String.ofList (jsTrim (chain.toList.takeWhile (fun c => c ≠ ',')))

/-- All peers have one address: the first entry of the chain, or that of the first peer if
there is no chain. -/
structure SameSource (chain : Option String) (peers : List PeerAddress) : Prop where
  entry : ∀ existing, truthy chain = some existing →
    ∀ peer ∈ peers, peer.text = firstEntry existing
  first : truthy chain = none → ∀ first ∈ peers.head?, ∀ peer ∈ peers, peer.text = first.text

namespace ProxiedRequest

/-- The request as a gateway gets it from a peer. -/
def fromPeer (chain : Option String) (peer : PeerAddress) (req : ProxiedRequest) :
    ProxiedRequest :=
  { req with
    xForwardedFor := chain
    remoteAddress := some peer.text }

/-- `X-Forwarded-For` of the request that goes on from a gateway. -/
def outgoing (req : ProxiedRequest) : Option String :=
  lastWrite "x-forwarded-for" (addProxyHeaders req)

/-- The chain behind gateways that the request reaches from these peers. -/
def forwarded (req : ProxiedRequest) (chain : Option String) (peers : List PeerAddress) :
    Option String :=
  peers.foldl (fun chain peer => (req.fromPeer chain peer).outgoing) chain

/-- The chain with the address of every peer. -/
def recorded (chain : Option String) (peers : List PeerAddress) : Option String :=
  peers.foldl (fun chain peer => some (appendEntry chain peer.text)) chain

/-- Every gateway has appended the address of the peer that connected to it. -/
def RecordsHops (req : ProxiedRequest) (chain : Option String) (peers : List PeerAddress) : Prop :=
  ∀ hops, hops <+: peers → req.forwarded chain hops = recorded chain hops

section Chains

variable {req : ProxiedRequest} {chain : Option String} {peer : PeerAddress}

theorem outgoing_eq (req : ProxiedRequest) :
    req.outgoing = some (appendEntry req.xForwardedFor (getClientIp req.toClientRequest)) := by
  have hfirst : addProxyHeaders req =
      ("X-Forwarded-For", appendEntry req.xForwardedFor (getClientIp req.toClientRequest)) ::
        (addProxyHeaders req).tail := rfl
  have hothers : ∀ entry ∈ (addProxyHeaders req).tail, lowerName entry.1 ≠ "x-forwarded-for" := by
    have hnames : ∀ entry ∈ (addProxyHeaders req).tail, entry.1 ∈ ["X-Real-IP",
        "X-Forwarded-Proto", "X-Forwarded-Host", "x-request-id", "x-correlation-id"] := by
      intro entry hentry
      simp only [addProxyHeaders, List.cons_append, List.tail_cons, List.nil_append,
        List.mem_cons, List.mem_append, List.mem_map] at hentry
      rcases hentry with rfl | rfl | rfl | ⟨_, -, rfl⟩ | ⟨_, -, rfl⟩ <;> simp
    have hlower : ∀ name ∈ ["X-Real-IP", "X-Forwarded-Proto", "X-Forwarded-Host", "x-request-id",
        "x-correlation-id"], lowerName name ≠ "x-forwarded-for" := by decide
    exact fun entry hentry => hlower entry.1 (hnames entry hentry)
  have hname : lowerName "X-Forwarded-For" = "x-forwarded-for" := by decide
  rw [outgoing, hfirst, ← List.singleton_append, lastWrite_append, lastWrite_eq_none hothers,
    Option.none_or, lastWrite_singleton, if_pos hname]

theorem truthy_appendEntry {entry : String} (h : truthy chain = none → entry ≠ "") :
    truthy (some (appendEntry chain entry)) = some (appendEntry chain entry) := by
  have hne : appendEntry chain entry ≠ "" := by
    rw [appendEntry]
    split
    · simp
    · next hnone => exact h hnone
  simp [truthy, hne]

/-- Where the chain has an entry, the client's address is the first one. -/
theorem getClientIp_of_truthy {existing : String} (h : truthy chain = some existing) :
    getClientIp (req.fromPeer chain peer).toClientRequest =
      firstEntry existing := by
  simp only [getClientIp, fromPeer, h, firstEntry]

/-- Without a chain it is the peer's. -/
theorem getClientIp_of_none (h : truthy chain = none) :
    getClientIp (req.fromPeer chain peer).toClientRequest = peer.text := by
  have hpeer : truthy (some peer.text) = some peer.text := by simp [truthy, peer.ne_empty]
  simp only [getClientIp, fromPeer, h, hpeer, Option.some_or, Option.getD_some]

/-- An address is its own first entry. -/
theorem firstEntry_address (peer : PeerAddress) :
    firstEntry peer.text = peer.text := by
  have hcomma : peer.text.toList.takeWhile (fun c => c ≠ ',') = peer.text.toList :=
    List.takeWhile_eq_self_iff.mpr (fun c hc => by simpa using (peer.plain c hc).1)
  have hspace : ∀ cs : List Char, (∀ c ∈ cs, isJsSpace c = false) →
      cs.dropWhile isJsSpace = cs := by
    intro cs hcs
    cases cs with
    | nil => rfl
    | cons c cs => rw [List.dropWhile_cons_of_neg (by simp [hcs c List.mem_cons_self])]
  rw [firstEntry, hcomma, jsTrim, hspace _ (fun c hc => (peer.plain c hc).2),
    hspace _ (fun c hc => (peer.plain c (List.mem_reverse.mp hc)).2), List.reverse_reverse,
    String.ofList_toList]

/-- More entries do not change the first one. -/
theorem takeWhile_append_entry (cs rest : List Char) :
    (cs ++ ',' :: rest).takeWhile (fun c => c ≠ ',') = cs.takeWhile (fun c => c ≠ ',') := by
  induction cs with
  | nil => rfl
  | cons c cs ih => rw [List.cons_append, List.takeWhile_cons, List.takeWhile_cons, ih]

theorem truthy_outgoing (req : ProxiedRequest) (chain : Option String) (peer : PeerAddress) :
    truthy (req.fromPeer chain peer).outgoing = (req.fromPeer chain peer).outgoing := by
  rw [outgoing_eq]
  refine truthy_appendEntry (fun hnone => ?_)
  have hnone : truthy chain = none := hnone
  rw [getClientIp_of_none hnone]
  exact peer.ne_empty

/-- The next gateway sees the same client. -/
theorem getClientIp_outgoing (other : PeerAddress) :
    getClientIp (req.fromPeer (req.fromPeer chain peer).outgoing other).toClientRequest =
      getClientIp (req.fromPeer chain peer).toClientRequest := by
  have hsome := truthy_outgoing req chain peer
  rw [outgoing_eq] at hsome ⊢
  rw [getClientIp_of_truthy hsome]
  cases hchain : truthy chain with
  | none =>
      have hentry : appendEntry (req.fromPeer chain peer).xForwardedFor
          (getClientIp (req.fromPeer chain peer).toClientRequest) = peer.text := by
        simp only [fromPeer, appendEntry, hchain]
        exact getClientIp_of_none hchain
      rw [hentry, firstEntry_address, getClientIp_of_none hchain]
  | some existing =>
      have hentry : appendEntry (req.fromPeer chain peer).xForwardedFor
          (getClientIp (req.fromPeer chain peer).toClientRequest) = existing ++ ", " ++
            getClientIp (req.fromPeer chain peer).toClientRequest := by
        simp only [fromPeer, appendEntry, hchain]
      have hlist : (existing ++ ", " ++
          getClientIp (req.fromPeer chain peer).toClientRequest).toList = existing.toList ++
            ',' :: ' ' :: (getClientIp (req.fromPeer chain peer).toClientRequest).toList := by
        simp [String.toList_append]
      rw [hentry, firstEntry, hlist, takeWhile_append_entry, getClientIp_of_truthy hchain,
        firstEntry]

theorem appendEntry_inj {entry entry' : String} :
    appendEntry chain entry = appendEntry chain entry' ↔ entry = entry' := by
  rw [appendEntry, appendEntry]
  cases truthy chain with
  | none => rfl
  | some existing =>
      constructor
      · intro heq
        have hlist := congrArg String.toList heq
        simp only [String.toList_append] at hlist
        exact String.toList_injective (List.append_cancel_left hlist)
      · rintro rfl
        rfl

/-- One gateway appends the address of its peer when the client has this address. -/
theorem outgoing_eq_recorded_iff :
    (req.fromPeer chain peer).outgoing = some (appendEntry chain peer.text) ↔
      peer.text = getClientIp (req.fromPeer chain peer).toClientRequest := by
  rw [outgoing_eq, Option.some.injEq]
  exact appendEntry_inj.trans eq_comm

theorem recordsHops_nil (req : ProxiedRequest) (chain : Option String) :
    req.RecordsHops chain [] := by
  intro hops hinit
  rw [List.prefix_nil.mp hinit]
  rfl

theorem recordsHops_cons_iff {peers : List PeerAddress} :
    req.RecordsHops chain (peer :: peers) ↔
      (req.fromPeer chain peer).outgoing = some (appendEntry chain peer.text) ∧
        req.RecordsHops (req.fromPeer chain peer).outgoing peers := by
  constructor
  · intro h
    have hfirst : (req.fromPeer chain peer).outgoing = some (appendEntry chain peer.text) :=
      h [peer] (List.cons_prefix_cons.mpr ⟨rfl, List.nil_prefix⟩)
    refine ⟨hfirst, fun hops hinit => ?_⟩
    have hrest := h (peer :: hops) (List.cons_prefix_cons.mpr ⟨rfl, hinit⟩)
    rw [hfirst]
    simpa only [forwarded, recorded, List.foldl_cons, hfirst] using hrest
  · rintro ⟨hfirst, hrest⟩ hops hinit
    cases hops with
    | nil => rfl
    | cons hop hops =>
        obtain ⟨rfl, htail⟩ := List.cons_prefix_cons.mp hinit
        have hstep := hrest hops htail
        rw [hfirst] at hstep
        simpa only [forwarded, recorded, List.foldl_cons, hfirst] using hstep

/-- Every gateway appends the address that the first one has found. -/
theorem recordsHops_iff (peers : List PeerAddress) :
    req.RecordsHops chain (peer :: peers) ↔ ∀ other ∈ peer :: peers,
      other.text = getClientIp (req.fromPeer chain peer).toClientRequest := by
  induction peers generalizing chain peer with
  | nil =>
      rw [recordsHops_cons_iff, outgoing_eq_recorded_iff]
      simp [recordsHops_nil]
  | cons next peers ih =>
      rw [recordsHops_cons_iff, outgoing_eq_recorded_iff, ih, getClientIp_outgoing]
      simp only [List.forall_mem_cons]

theorem sameSource_iff (req : ProxiedRequest) (peers : List PeerAddress) :
    SameSource chain (peer :: peers) ↔ ∀ other ∈ peer :: peers,
      other.text = getClientIp (req.fromPeer chain peer).toClientRequest := by
  cases hchain : truthy chain with
  | none =>
      rw [getClientIp_of_none hchain]
      refine ⟨fun h => h.first hchain peer rfl, fun h => ⟨by simp [hchain], fun _ => ?_⟩⟩
      intro first hfirst
      obtain rfl : peer = first := by simpa using hfirst
      exact h
  | some existing =>
      rw [getClientIp_of_truthy hchain]
      refine ⟨fun h => h.entry existing hchain, fun h => ⟨?_, by simp [hchain]⟩⟩
      intro existing' hchain'
      obtain rfl := Option.some.inj (hchain.symm.trans hchain')
      exact h

/-- Behind any number of gateways the chain is the incoming one with the address of every
peer exactly when all peers have the address that the chain begins with.  Every gateway
takes the client for the one that the gateway before it has seen. -/
theorem forwarding_iff (req : ProxiedRequest) (chain : Option String)
    (peers : List PeerAddress) :
    (req.RecordsHops chain peers ↔ SameSource chain peers) ∧
      ∀ (hops : List PeerAddress) (peer other : PeerAddress),
        getClientIp (req.fromPeer (req.forwarded chain (hops ++ [peer])) other).toClientRequest =
          getClientIp (req.fromPeer (req.forwarded chain hops) peer).toClientRequest := by
  constructor
  · cases peers with
    | nil => exact iff_of_true (recordsHops_nil req chain) ⟨by simp, by simp⟩
    | cons peer peers => rw [recordsHops_iff, sameSource_iff req]
  · intro hops peer other
    have hforwarded : req.forwarded chain (hops ++ [peer]) =
        (req.fromPeer (req.forwarded chain hops) peer).outgoing := by
      rw [forwarded, List.foldl_append]
      rfl
    rw [hforwarded, getClientIp_outgoing]

/-- The client address comes twice, and the proxy in front of the gateway not at all. -/
theorem forwarding_repeats :
    ¬ ∀ (req : ProxiedRequest) (chain : Option String) (peers : List PeerAddress),
      req.RecordsHops chain peers := by
  intro hclaim
  have hrecords := hclaim
    { method := "GET", originalUrl := "/", xForwardedFor := none, xSessionId := none
      remoteAddress := none, ip := none, protocol := "http", host := none, requestId := none
      correlationId := none, xRequestId := none, xCorrelationId := none }
    (some "203.0.113.7") [⟨"10.0.0.2", by decide, by simp [isJsSpace]⟩] _ (List.prefix_refl _)
  revert hrecords
  decide

end Chains

end ProxiedRequest

end SentinelADC
