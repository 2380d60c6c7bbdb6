import QuietRoute.Stomp.FrameRoundTrip
import QuietRoute.Stomp.ServerRuns

/-! What the server writes when its user sends a message to a client. -/
namespace QuietRoute

open StompFrame

theorem isNumeral_decimal (n : ℕ) : IsNumeral (decimal n) n := by
  have hdecimal : decimal n = (Nat.toDigits 10 n).map fun c => UInt8.ofNat c.toNat := by
    rw [decimal,ascii,Nat.toString_eq_repr,Nat.toList_repr]
  have hdigits : ∀ c ∈ Nat.toDigits 10 n, 48 ≤ c.toNat ∧ c.toNat ≤ 57 := by
    intro c hc
    have hdigit := Nat.isDigit_of_mem_toDigits (by norm_num) le_rfl hc
    simpa [Char.isDigit,UInt32.le_iff_toNat_le] using hdigit
  have hbyte : ∀ c ∈ Nat.toDigits 10 n, (UInt8.ofNat c.toNat).toNat = c.toNat := by
    intro c hc
    have hbound := hdigits c hc
    rw [UInt8.toNat_ofNat']
    omega
  refine ⟨?_,?_,?_⟩
  · rw [hdecimal,ne_eq,List.map_eq_nil_iff]
    exact Nat.toDigits_ne_nil
  · intro byte hmem
    rw [hdecimal,List.mem_map] at hmem
    obtain ⟨c,hc,rfl⟩ := hmem
    have hbound := hdigits c hc
    rw [isDigit,Bool.and_eq_true,decide_eq_true_eq,decide_eq_true_eq,UInt8.le_iff_toNat_le,
      UInt8.le_iff_toNat_le,hbyte c hc]
    exact hbound
  · have hfold : ∀ (cs : List Char) (init : ℕ), (∀ c ∈ cs, (UInt8.ofNat c.toNat).toNat = c.toNat) →
        (cs.map fun c => UInt8.ofNat c.toNat).foldl (fun n c => 10*n+(c.toNat-48)) init =
          Nat.ofDigitChars 10 cs init := by
      intro cs
      induction cs with
      | nil => simp
      | cons c cs ih =>
        intro init hcs
        rw [List.map_cons,List.foldl_cons,Nat.ofDigitChars_cons,hcs c List.mem_cons_self]
        exact ih _ fun c' hc' => hcs c' (List.mem_cons_of_mem _ hc')
    rw [decimalValue,hdecimal,hfold _ 0 hbyte]
    exact Nat.ofDigitChars_toDigits (by norm_num) le_rfl

def messageHeaders (requestId destination messageContent : Bytes) : Headers :=
  ⟨[(.kId,requestId),(.kDestination,destination),(.kContentType,ascii "application/json"),
    (.kContentLength,decimal messageContent.length)],by simp⟩

theorem messageHeaders_legal {requestId destination messageContent : Bytes} (hid : requestId ≠ [])
    (hidLine : newLine ∉ requestId) (hdestination : destination ≠ [])
    (hdestinationLine : newLine ∉ destination) (hfits : messageContent.length < 2^64) :
    LegalComponents .kSend (messageHeaders requestId destination messageContent) messageContent := by
  refine ⟨by decide,?_,?_,Or.inr rfl,?_,hfits⟩
  · intro h hmem
    simp only [messageHeaders,List.mem_cons,List.not_mem_nil,or_false] at hmem
    have hdecimal := isNumeral_decimal messageContent.length
    rcases hmem with rfl | rfl | rfl | rfl
    · exact ⟨by simp,hid,hidLine⟩
    · exact ⟨by simp,hdestination,hdestinationLine⟩
    · exact ⟨by decide,by decide +kernel,by decide +kernel⟩
    · refine ⟨by simp,hdecimal.ne_nil,fun hline => ?_⟩
      exact absurd (hdecimal.digits _ hline) (by decide)
  · intro header hheader
    rw [List.mem_singleton.mp hheader]
    rfl
  · intro value hvalue
    obtain rfl : decimal messageContent.length = value := Option.some.inj hvalue
    exact isNumeral_decimal _

namespace StompServer

variable {Session : Type} [DecidableEq Session] {ids : IdGenerator} {unspecified : Unspecified}
  {server : StompServer Session}

/-- The id that a message to a client gets, and how many ids are drawn for it. -/
def replyId (ids : IdGenerator) (server : StompServer Session) (userRequestId : Bytes) : Bytes × ℕ :=
  if userRequestId = [] then (ids.nth server.generated,1) else (userRequestId,0)

omit [DecidableEq Session] in
theorem replyId_ne_nil (userRequestId : Bytes) : (server.replyId ids userRequestId).1 ≠ [] := by
  rw [replyId]
  split_ifs with hid
  · exact ids.nth_ne_nil _
  · exact hid

omit [DecidableEq Session] in
theorem newLine_not_mem_replyId {userRequestId : Bytes} (h : newLine ∉ userRequestId) :
    newLine ∉ (server.replyId ids userRequestId).1 := by
  rw [replyId]
  split_ifs
  · exact ids.newLine_not_mem_nth _
  · exact h

theorem send_of_connected {connectionId destination messageContent userRequestId : Bytes}
    {w : Session} {c : Connection} (hsession : server.sessions.find connectionId = some w)
    (hfind : server.connections.find w = some c) (hconnected : c.status = .kConnected)
    (hid : newLine ∉ userRequestId) (hdestination : destination ≠ [])
    (hdestinationLine : newLine ∉ destination) (hfits : messageContent.length < 2^64) :
    (server.send ids unspecified connectionId destination messageContent userRequestId).2 =
      {server with
        generated := server.generated+(server.replyId ids userRequestId).2
        written := server.written ++ [(w,.send (plainText .kSend (unspecified.arrange
          (messageHeaders (server.replyId ids userRequestId).1 destination messageContent))
          messageContent))]} := by
  have hlegal := messageHeaders_legal (@replyId_ne_nil Session ids server userRequestId)
    (newLine_not_mem_replyId hid) hdestination hdestinationLine hfits
  have hassemble := @LegalComponents.assemble_eq _ _ _ unspecified hlegal
  rw [messageHeaders] at hassemble
  rw [send]
  simp only [hsession,hfind]
  rw [if_neg (not_not.mpr hconnected)]
  by_cases hempty : userRequestId = []
  · simp only [replyId,hempty,if_true,generateId] at hassemble ⊢
    simp only [hassemble,ne_eq,not_true,if_false]
    rfl
  · simp only [replyId,hempty,if_false] at hassemble ⊢
    simp only [hassemble,ne_eq,not_true,if_false]
    rfl

theorem send_of_not_connected (hserver : Consistent ids server) {connectionId : Bytes}
    (hnot : ∀ w c, server.connections.find w = some c → c.id = connectionId →
      c.status ≠ .kConnected) (destination messageContent userRequestId : Bytes) :
    (server.send ids unspecified connectionId destination messageContent userRequestId).2 =
      server := by
  rw [send]
  cases hsession : server.sessions.find connectionId with
  | none => rfl
  | some w =>
    obtain ⟨c,hfind,hid⟩ := (hserver.sessions_iff connectionId w).mp hsession
    simp only [hfind]
    rw [if_pos (hnot w c hfind hid)]

theorem send_written (connectionId destination messageContent userRequestId : Bytes) : ∃ actions,
    (server.send ids unspecified connectionId destination messageContent userRequestId).2.written =
      server.written ++ actions ∧ ∀ e ∈ actions, server.sessions.find connectionId = some e.1 := by
  obtain ⟨n,actions,hsend,hcases⟩ := @send_cases _ _ ids unspecified server connectionId
    destination messageContent userRequestId
  refine ⟨actions,by rw [hsend],fun e he => ?_⟩
  rcases hcases with rfl | ⟨w,hsession,⟨-,rfl⟩ | ⟨c,headers,-,-,rfl⟩⟩
  · cases he
  · rw [List.mem_singleton.mp he,hsession]
  · rw [List.mem_singleton.mp he,hsession]

end StompServer
end QuietRoute
