/-
# Sending again over a lossy network

The ATM sends a request again until a reply comes or its attempts are used up. The network
between it and the Bank may lose or double every copy of the request, and lose, double, delay
or reorder the replies; datagrams of others may arrive as well. A `Fate` says what becomes of one
attempt, and a `Wire` is the Bank behind such a network.

Whatever becomes of the attempts, the Bank ends as if exactly one copy had reached it, or as it
was if none did, and no reply but the first one comes back (`roundTrip_transparent`). The Bank's
part is that it answers the second copy as the first and executes nothing (`Bank.handle_twice`);
the link's part is to take whatever comes from its peer.
-/

import Cashpoint.Proofs.Bank.Replay
import Cashpoint.Proofs.Network.Trip

namespace Cashpoint

open Bank (Execution)

/-! ## The network -/

/-- Something that arrives at the ATM while it waits for a reply of its peer. -/
inductive Arrival (peer : SocketAddress)
  /-- A reply of the Bank, by its age: 0 for the one sent last. There may be none of that age. -/
  | reply (age : Nat)
  /-- A datagram of somebody else. -/
  | stray (datagram : Datagram) (foreign : datagram.source ≠ peer)

/-- The datagram that arrives, given the replies sent so far, oldest first. -/
def Arrival.datagram? {peer : SocketAddress} (replies : List (List UInt8)) : Arrival peer → Option Datagram
  | reply age => replies.reverse[age]?.map fun payload => { source := peer, payload }
  | stray datagram _ => some datagram

/-- Whether it is a reply, given the number of replies sent so far. -/
def Arrival.isReply {peer : SocketAddress} (sent : Nat) : Arrival peer → Bool
  | reply age => age < sent
  | stray _ _ => false

/-- What becomes of one attempt to send a request. -/
structure Fate (peer : SocketAddress) where
  /-- The copies of the request that reach the Bank, each with the vector of a new reply. -/
  copies : List (Bytes 12)
  /-- What arrives at the ATM before the wait is over, in order. -/
  arrivals : List (Arrival peer)

namespace Fate

variable {peer : SocketAddress}

/-- The fate of an attempt whose replies come back while the ATM waits, or are lost. -/
def ofLoss (copies : List (Bytes 12)) (returns : Bool) : Fate peer where
  copies
  arrivals := if returns then (List.range copies.length).reverse.map .reply else []

/-- Whether a reply arrives, given the number of replies sent by then. -/
def brings (fate : Fate peer) (sent : Nat) : Bool := fate.arrivals.any (Arrival.isReply sent)

/-- Whether a reply arrives in one of several attempts, given the number of replies sent before them. -/
def replied (sent : Nat) : List (Fate peer) → Bool
  | [] => false
  | fate :: rest => fate.brings (sent + fate.copies.length) || replied (sent + fate.copies.length) rest

/-- Under a pattern of losses, an attempt brings a reply if a copy arrives and its reply returns. -/
theorem brings_ofLoss (copies : List (Bytes 12)) (returns : Bool) (sent : Nat) :
    (ofLoss copies returns : Fate peer).brings (sent + copies.length) = (returns && !copies.isEmpty) := by
  cases returns with
  | false => rfl
  | true =>
    cases copies with
    | nil => rfl
    | cons iv rest =>
      have hmem : Arrival.reply 0 ∈ (ofLoss (iv :: rest) true : Fate peer).arrivals := by simp [ofLoss]
      have hreply : (Arrival.reply 0 : Arrival peer).isReply (sent + (iv :: rest).length) = true := by
        simp only [Arrival.isReply, List.length_cons, decide_eq_true_eq]
        omega
      exact List.any_eq_true.2 ⟨_, hmem, hreply⟩

/-- **Where nothing is late, a reply comes back in the attempts whose replies are not lost** and that reach the
Bank. -/
theorem replied_ofLoss (losses : List (List (Bytes 12) × Bool)) (sent : Nat) :
    replied sent (losses.map fun loss => (ofLoss loss.1 loss.2 : Fate peer)) =
      losses.any fun loss => loss.2 && !loss.1.isEmpty := by
  induction losses generalizing sent with
  | nil => rfl
  | cons loss rest ih =>
    have hcopies : (ofLoss loss.1 loss.2 : Fate peer).copies = loss.1 := rfl
    rw [List.map_cons, replied, hcopies, brings_ofLoss, ih, List.any_cons]

end Fate

/-- A Bank behind a lossy network. -/
structure Wire (peer : SocketAddress) where
  bank : Bank
  /-- The replies that the Bank has sent, oldest first. -/
  replies : List (List UInt8) := []
  /-- The requests that the Bank has executed, oldest first. -/
  executed : List Execution := []
  /-- What becomes of the attempts to come. -/
  fates : List (Fate peer)

namespace Wire

variable {peer : SocketAddress}

/-- One copy of a datagram reaches the Bank. -/
def deliver (datagram : List UInt8) (w : Wire peer) (replyIv : Bytes 12) : Wire peer :=
  { w with
    bank := (w.bank.handle replyIv datagram).2
    replies := w.replies ++ (w.bank.handle replyIv datagram).1.toOption.toList
    executed := w.executed ++ (w.bank.execution? replyIv datagram).toList }

/-- Sends a datagram once. When no fate is left it is lost. -/
def transmit : Link.Transmit (Wire peer) := fun w datagram =>
  match w.fates with
  | [] => (.ok [], w)
  | fate :: rest =>
    let w := fate.copies.foldl (deliver datagram) { w with fates := rest }
    (.ok (fate.arrivals.filterMap (Arrival.datagram? w.replies)), w)

end Wire

/-! ## The Bank's part -/

/-- **A request that has been executed is answered in the same way again**, and not executed. -/
theorem Bank.handle_twice {bank : Bank} {datagram plaintext : List UInt8} {request : Frame}
    (hnew : bank.newRequest? datagram = some (request, plaintext)) (replyIv again : Bytes 12) :
    let answered := (bank.handle replyIv datagram).2
    answered.handle again datagram = ((bank.handle replyIv datagram).1, answered) ∧
      answered.execution? again datagram = none := by
  intro answered
  obtain ⟨hopen, -⟩ := newRequest?_eq_some_iff.1 hnew
  obtain ⟨reply, -, hhandle⟩ := handle_of_newRequest hnew replyIv
  have hreply : (bank.handle replyIv datagram).1 = .ok reply := congrArg Prod.fst hhandle
  have hanswered : answered = { bank with
      ledger := (respondTo bank.ledger plaintext).2
      highWater := request.sequence
      last? := some { iv := request.iv, tag := request.tag, reply } } := congrArg Prod.snd hhandle
  have hopen' : answered.openRequest datagram = .ok (request, plaintext) := by
    rw [hanswered]
    exact hopen
  have hpassed : request.sequence ≤ answered.highWater := Nat.le_of_eq (by rw [hanswered])
  constructor
  · have hrepeated : answered.repeatLast request = .ok reply := by simp [repeatLast, hanswered]
    rw [handle_of_old hopen' hpassed, hrepeated, hreply]
  · rw [execution?, Option.map_eq_none_iff, Option.eq_none_iff_forall_ne_some]
    rintro ⟨other, plain⟩ hagain
    obtain ⟨hother, habove⟩ := newRequest?_eq_some_iff.1 hagain
    obtain ⟨rfl, -⟩ := Prod.mk.inj (Except.ok.inj (hopen'.symm.trans hother))
    omega

namespace Wire

/-- What is known of the network once copies with these vectors have reached the Bank: it is as after the
first of them, and all replies are the one to that. -/
structure Served (bank : Bank) (datagram : List UInt8) (ivs : List (Bytes 12)) (w : Wire peer) : Prop where
  bank_eq : w.bank = ((ivs.head?).map fun iv => (bank.handle iv datagram).2).getD bank
  executed_eq : w.executed = (ivs.head?.bind fun iv => bank.execution? iv datagram).toList
  length_replies : w.replies.length = ivs.length
  replies_eq : ∀ reply ∈ w.replies, ∃ iv, ivs.head? = some iv ∧ (bank.handle iv datagram).1 = .ok reply

variable {bank : Bank} {datagram plaintext : List UInt8} {request : Frame} {ivs : List (Bytes 12)}
  {w : Wire peer}

/-- Before the first attempt the request has not been served. -/
theorem served_start (bank : Bank) (datagram : List UInt8) (fates : List (Fate peer)) :
    Served bank datagram [] { bank, fates } where
  bank_eq := rfl
  executed_eq := rfl
  length_replies := rfl
  replies_eq := by simp

/-- What becomes of later attempts has no part in it. -/
theorem Served.with_fates (h : Served bank datagram ivs w) (fates : List (Fate peer)) :
    Served bank datagram ivs { w with fates } :=
  ⟨h.bank_eq, h.executed_eq, h.length_replies, h.replies_eq⟩

/-- A copy that arrives is served, from the memory of the Bank if it is not the first. -/
theorem Served.deliver (h : Served bank datagram ivs w)
    (hnew : bank.newRequest? datagram = some (request, plaintext)) (replyIv : Bytes 12) :
    Served bank datagram (ivs ++ [replyIv]) (w.deliver datagram replyIv) := by
  cases ivs with
  | nil =>
    obtain ⟨reply, -, hhandle⟩ := Bank.handle_of_newRequest hnew replyIv
    have hbank : w.bank = bank := h.bank_eq
    have hreplies : w.replies = [] := List.length_eq_zero_iff.1 h.length_replies
    have hexecuted : w.executed = [] := h.executed_eq
    have hreply : (bank.handle replyIv datagram).1 = .ok reply := congrArg Prod.fst hhandle
    exact {
      bank_eq := by simp [Wire.deliver, hbank]
      executed_eq := by simp [Wire.deliver, hbank, hexecuted]
      length_replies := by simp [Wire.deliver, hbank, hreplies, hreply, Except.toOption]
      replies_eq := by simp [Wire.deliver, hbank, hreplies, hreply, Except.toOption] }
  | cons first rest =>
    obtain ⟨reply, -, hhandle⟩ := Bank.handle_of_newRequest hnew first
    have hreply : (bank.handle first datagram).1 = .ok reply := congrArg Prod.fst hhandle
    have hbank : w.bank = (bank.handle first datagram).2 := h.bank_eq
    obtain ⟨hagain, hnone⟩ := Bank.handle_twice hnew first replyIv
    rw [← hbank] at hagain hnone
    exact {
      bank_eq := (congrArg Prod.snd hagain).trans hbank
      executed_eq := by simp [Wire.deliver, hnone, h.executed_eq]
      length_replies := by simp [Wire.deliver, hagain, hreply, h.length_replies, Except.toOption]
      replies_eq := by
        intro other hother
        rcases List.mem_append.1 hother with hother | hother
        · exact h.replies_eq other hother
        · obtain rfl : other = reply := by simpa [hagain, hreply, Except.toOption] using hother
          exact ⟨first, rfl, hreply⟩ }

/-- So are all copies of an attempt. -/
theorem Served.deliver_all (h : Served bank datagram ivs w)
    (hnew : bank.newRequest? datagram = some (request, plaintext)) (copies : List (Bytes 12)) :
    Served bank datagram (ivs ++ copies) (copies.foldl (Wire.deliver datagram) w) := by
  induction copies generalizing ivs w with
  | nil => simpa using h
  | cons replyIv rest ih =>
    have hrest := ih (h.deliver hnew replyIv)
    rwa [List.append_assoc, List.singleton_append] at hrest

/-- Copies that arrive do not change what becomes of the attempts to come. -/
theorem fates_deliver_all (datagram : List UInt8) (copies : List (Bytes 12)) (w : Wire peer) :
    (copies.foldl (Wire.deliver datagram) w).fates = w.fates := by
  induction copies generalizing w with
  | nil => rfl
  | cons replyIv rest ih => exact ih (w.deliver datagram replyIv)

/-! ## The link's part -/

end Wire

variable {peer : SocketAddress} {replies : List (List UInt8)}

/-- **What comes from the peer is a reply of the Bank.** -/
theorem Arrival.mem_of_datagram? {arrival : Arrival peer} {payload : List UInt8}
    (h : arrival.datagram? replies = some { source := peer, payload }) : payload ∈ replies := by
  cases arrival with
  | stray datagram foreign =>
    obtain rfl := Option.some.inj h
    exact absurd rfl foreign
  | reply age =>
    obtain ⟨found, hfound, heq⟩ := Option.map_eq_some_iff.1 h
    obtain rfl : found = payload := congrArg Datagram.payload heq
    exact List.mem_reverse.1 (List.mem_of_getElem? hfound)

/-- What arrives is no reply just if it brings nothing of the peer. -/
theorem Arrival.isReply_eq_false_iff {arrival : Arrival peer} :
    arrival.isReply replies.length = false ↔
      ∀ datagram, arrival.datagram? replies = some datagram → datagram.source ≠ peer := by
  cases arrival with
  | stray other foreign => simp [isReply, datagram?, foreign]
  | reply age =>
    by_cases h : age < replies.length
    · simp [isReply, datagram?, h]
    · simp [isReply, datagram?, h]

/-- **A wait takes a reply of the Bank if one arrives**, and nothing otherwise. -/
theorem Fate.firstFrom_eq_none_iff {fate : Fate peer} :
    Link.firstFrom peer (fate.arrivals.filterMap (Arrival.datagram? replies)) = none ↔
      fate.brings replies.length = false := by
  simp only [Link.firstFrom_eq_none_iff, brings, List.any_eq_false, List.mem_filterMap, Bool.not_eq_true,
    Arrival.isReply_eq_false_iff, forall_exists_index, and_imp]
  constructor
  · exact fun h arrival harrival datagram hdatagram => h datagram arrival harrival hdatagram
  · exact fun h datagram arrival harrival hdatagram => h arrival harrival datagram hdatagram

namespace Wire

variable {bank : Bank} {datagram plaintext : List UInt8} {request : Frame}

/-- What an attempt brings: the Bank handles the copies that reach it, and then the arrivals come. -/
theorem transmit_eq {w : Wire peer} {fate : Fate peer} {rest : List (Fate peer)} (h : w.fates = fate :: rest)
    (datagram : List UInt8) :
    transmit w datagram = (.ok (fate.arrivals.filterMap (Arrival.datagram?
        (fate.copies.foldl (deliver datagram) { w with fates := rest }).replies)),
      fate.copies.foldl (deliver datagram) { w with fates := rest }) := by
  rw [transmit, h]

/-- **What the attempts still to come lead to.** -/
theorem Served.attempt {ivs : List (Bytes 12)} {w : Wire peer} (h : Served bank datagram ivs w)
    (hnew : bank.newRequest? datagram = some (request, plaintext)) {link : Link} (hpeer : link.peer = peer)
    (htimeout : 0 < link.timeout) (hinbox : link.inbox = []) {fates : List (Fate peer)}
    (hfates : w.fates = fates) :
    ∃ served link' after result,
      Link.attempt transmit datagram fates.length link w = (result, link', after) ∧
        Served bank datagram served after ∧ served.head? = (ivs ++ fates.flatMap Fate.copies).head? ∧
        (Fate.replied ivs.length fates = true →
          ∃ iv reply, served.head? = some iv ∧ (bank.handle iv datagram).1 = .ok reply ∧ result = .ok reply) ∧
        (Fate.replied ivs.length fates = false → result = .error (.timeout link.attempts)) := by
  induction fates generalizing ivs w link with
  | nil => exact ⟨ivs, link, w, _, rfl, h, by simp, by simp [Fate.replied], fun _ => rfl⟩
  | cons fate rest ih =>
    have hserved : Served bank datagram (ivs ++ fate.copies)
        (fate.copies.foldl (Wire.deliver datagram) { w with fates := rest }) :=
      (h.with_fates rest).deliver_all hnew fate.copies
    have hrest := fates_deliver_all datagram fate.copies { w with fates := rest }
    have hsend := transmit_eq hfates datagram
    generalize fate.copies.foldl (Wire.deliver datagram) { w with fates := rest } = next at hserved hrest hsend
    have hlength : next.replies.length = ivs.length + fate.copies.length := by
      rw [hserved.length_replies, List.length_append]
    subst hpeer
    have hattempt := Link.attempt_succ htimeout hsend rest.length
    rw [hinbox, List.nil_append] at hattempt
    cases hfirst : Link.firstFrom link.peer (fate.arrivals.filterMap (Arrival.datagram? next.replies)) with
    | none =>
      have hbrings := Fate.firstFrom_eq_none_iff.1 hfirst
      obtain ⟨served, link', after, result, hlater, hserved', hhead, hreplied, hlost⟩ :=
        ih hserved (show ({ link with inbox := [] } : Link).peer = link.peer from rfl) htimeout rfl hrest
      refine ⟨served, link', after, result, ?_, hserved', ?_, ?_, ?_⟩
      · rw [List.length_cons, hattempt, hfirst]
        exact hlater
      · rw [hhead, List.flatMap_cons, List.append_assoc]
      · rw [Fate.replied, ← hlength, hbrings, Bool.false_or, hserved.length_replies]
        exact hreplied
      · rw [Fate.replied, ← hlength, hbrings, Bool.false_or, hserved.length_replies]
        exact hlost
    | some found =>
      obtain ⟨reply, later⟩ := found
      have hbrings : fate.brings next.replies.length = true := by
        rw [← Bool.not_eq_false, ← Fate.firstFrom_eq_none_iff, hfirst]
        simp
      obtain ⟨arrival, -, harrival⟩ := List.mem_filterMap.1 (Link.mem_of_firstFrom hfirst)
      obtain ⟨iv, hiv, hhandle⟩ := hserved.replies_eq reply (Arrival.mem_of_datagram? harrival)
      refine ⟨ivs ++ fate.copies, { link with inbox := later }, next, .ok reply, ?_, hserved, ?_, ?_, ?_⟩
      · rw [List.length_cons, hattempt, hfirst]
      · rw [List.flatMap_cons, ← List.append_assoc, List.head?_append (l := ivs ++ fate.copies), hiv]
        rfl
      · exact fun _ => ⟨iv, reply, hiv, hhandle, rfl⟩
      · rw [Fate.replied, ← hlength, hbrings]
        simp

/-- **Sending a request again is as good as sending it once.**  Let a datagram hold an authentic request with a
number above the mark of the Bank, and let the link wait at all. There is one more attempt than retries, below the
limit. Whatever becomes of the attempts, and whatever lies in the inbox: if no copy reaches the Bank, the round trip
ends in a timeout and the Bank is as before. If some do, the Bank is as after the first of them alone, it has
executed the request once, and the link returns the reply to that first one if any reply arrives, or times out. -/
theorem roundTrip_transparent {bank : Bank} {datagram plaintext : List UInt8} {request : Frame}
    (hdecode : Frame.decode datagram = .ok request)
    (hopen : request.openPlain bank.keys.messageKey = .ok plaintext)
    (habove : bank.highWater < request.sequence)
    {link : Link} (htimeout : 0 < link.timeout) (fates : List (Fate link.peer))
    (hfates : fates.length = link.attempts) :
    let trip := link.roundTrip transmit { bank, fates } datagram
    let after := trip.2.2
    let copies := fates.flatMap Fate.copies
    let timeout : Except Error (List UInt8) := .error (.timeout link.attempts)
    (link.maxRetries < Link.retryLimit → link.attempts = link.maxRetries + 1) ∧
    ((copies = [] ∧ Fate.replied 0 fates = false ∧ trip.1 = timeout ∧ after.bank = bank ∧ after.executed = []) ∨
      ∃ iv reply e, copies.head? = some iv ∧ bank.handle iv datagram = (.ok reply, after.bank) ∧
        bank.execution? iv datagram = some e ∧ after.executed = [e] ∧
        trip.1 = if Fate.replied 0 fates then .ok reply else timeout) := by
  intro trip after copies timeout
  refine ⟨Link.attempts_eq, ?_⟩
  have hnew : bank.newRequest? datagram = some (request, plaintext) :=
    Bank.newRequest?_eq_some_iff.2 ⟨Bank.openRequest_eq_ok_iff.2 ⟨hdecode, hopen⟩, habove⟩
  obtain ⟨served, link', reached, result, hattempt, hserved, hhead, hreplied, hlost⟩ :=
    (served_start bank datagram fates).attempt hnew (show link.drain.peer = link.peer from rfl) htimeout rfl rfl
  have htrip : trip = (result, link', reached) := by
    rw [← hattempt, hfates]
    rfl
  obtain rfl : trip.1 = result := congrArg Prod.fst htrip
  obtain rfl : after = reached := congrArg (fun out => out.2.2) htrip
  change served.head? = copies.head? at hhead
  cases hfirst : copies.head? with
  | none =>
    have hnone : Fate.replied 0 fates = false := by
      rw [← Bool.not_eq_true]
      intro h
      obtain ⟨iv, -, hiv, -⟩ := hreplied h
      rw [hhead, hfirst] at hiv
      simp at hiv
    have hbank := hserved.bank_eq
    have hexecuted := hserved.executed_eq
    rw [hhead, hfirst] at hbank hexecuted
    exact Or.inl ⟨List.head?_eq_none_iff.1 hfirst, hnone, hlost hnone, hbank, hexecuted⟩
  | some iv =>
    obtain ⟨reply, -, hhandle⟩ := Bank.handle_of_newRequest hnew iv
    have hreply : (bank.handle iv datagram).1 = .ok reply := congrArg Prod.fst hhandle
    have hbank := hserved.bank_eq
    have hexecuted := hserved.executed_eq
    rw [hhead, hfirst] at hbank hexecuted
    obtain ⟨e, he⟩ : ∃ e, bank.execution? iv datagram = some e := ⟨_, by rw [Bank.execution?, hnew]; rfl⟩
    refine Or.inr ⟨iv, reply, e, rfl, Prod.ext hreply hbank.symm, he, ?_, ?_⟩
    · rw [hexecuted, Option.bind_some, he, Option.toList_some]
    · split
      · rename_i h
        obtain ⟨first, found, hiv, hfound, hresult⟩ := hreplied h
        rw [hhead, hfirst] at hiv
        obtain rfl := Option.some.inj hiv
        rw [hresult, ← hreply, hfound]
      · rename_i h
        exact hlost (Bool.not_eq_true _ ▸ h)

/-- The reply to the first copy is lost. Then two copies arrive, and what comes back is the reply to the first. -/
theorem roundTrip_transparent_second :
    ∃ (bank : Bank) (datagram reply : List UInt8) (e : Execution) (link : Link) (fates : List (Fate link.peer)),
      (bank.handle (Bytes.zero 12) datagram).1 = .ok reply ∧
        (link.roundTrip transmit { bank, fates } datagram).1 = .ok reply ∧
        (link.roundTrip transmit { bank, fates } datagram).2.2.executed = [e] := by
  let bank : Bank := { keys := ⟨Bytes.zero 32, Bytes.zero 32⟩, cards := ⟨⟨"."⟩⟩ }
  let link : Link := { peer := .v4 #v[127, 0, 0, 1] 9, timeout := 5, maxRetries := 1 }
  let losses := [([Bytes.zero 12], false), ([Bytes.zero 12, Bytes.zero 12], true)]
  let fates : List (Fate link.peer) := losses.map fun loss => .ofLoss loss.1 loss.2
  obtain ⟨request, datagram, hs, -, hopens⟩ := bank.exists_openRequest
    (Sequencer.vector (Bytes.zero 4) 1) (Utf8.encode "balance a") (by decide)
  obtain ⟨hdecode, hopen⟩ := Bank.openRequest_eq_ok_iff.1 hopens
  have hone : request.sequence = 1 := Sequencer.sequence_of_iv (Frame.iv_of_sealWith hs) (by decide)
  have habove : bank.highWater < request.sequence := by
    rw [hone]
    decide
  have hreplied : Fate.replied 0 fates = true := by
    rw [Fate.replied_ofLoss]
    rfl
  rcases (roundTrip_transparent hdecode hopen habove (by decide) fates rfl).2 with
    ⟨-, hlost, -⟩ | ⟨iv, reply, e, hiv, hhandle, -, hexecuted, hresult⟩
  · rw [hreplied] at hlost
    simp at hlost
  · obtain rfl : Bytes.zero 12 = iv := Option.some.inj hiv
    rw [hreplied, if_pos rfl] at hresult
    exact ⟨bank, datagram, reply, e, link, fates, congrArg Prod.fst hhandle, hresult, hexecuted⟩

end Wire
end Cashpoint
