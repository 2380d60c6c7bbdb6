import QuietRoute.Stomp.ClientRuns
import QuietRoute.Stomp.ServerReplies

/-! What the `SEND` frames of clients and servers say, however they are read, and what other texts do
not say. -/
namespace QuietRoute

open StompFrame

theorem filterMap_toList {α β : Type} (o : Option α) (f : α → Option β) :
    o.toList.filterMap f = (o.bind f).toList := by
  cases o with
  | none => rfl
  | some a => cases h : f a <;> simp [h]

/-- What a `SEND` frame says. -/
structure Letter where
  destination : Bytes
  requestId : Bytes
  content : Bytes
  deriving DecidableEq

/-- A text that arrives, and what the call that reads it leaves open. -/
abbrev Arrival := Unspecified × Bytes

def letterOf (arrival : Arrival) : Option Letter :=
  match ofString arrival.1.uninitialised arrival.2 with
  | some (.kOk,frame) =>
    if frame.command = .kSend then
      some ⟨frame.getHeaderValue .kDestination,frame.getHeaderValue .kId,frame.body⟩
    else none
  | _ => none

theorem command_of_read {unspecified : Unspecified} {text : Bytes} {frame : StompFrame}
    (h : ofString unspecified.uninitialised text = some (.kOk,frame)) :
    frame.command = commandOf text := by
  obtain ⟨command,hs,body,hread,rfl⟩ := ofString_ok_iff.mp h
  obtain ⟨n,htext⟩ := hread.text_eq
  have hline : ∀ c ∈ command.toString, decide (c ≠ newLine) = true := by
    intro c hc
    have hne : c ≠ newLine := fun heq => newLine_not_mem_command command (heq ▸ hc)
    simpa using hne
  rw [commandOf,htext,frameHead,List.append_assoc,List.takeWhile_append_of_pos hline,
    List.cons_append,List.takeWhile_cons_of_neg (by simp),List.append_nil,toCommand_toString]
  rfl

theorem letterOf_eq_some {unspecified : Unspecified} {text : Bytes} {frame : StompFrame}
    (h : ofString unspecified.uninitialised text = some (.kOk,frame))
    (hcommand : frame.command = .kSend) :
    letterOf (unspecified,text) =
      some ⟨frame.getHeaderValue .kDestination,frame.getHeaderValue .kId,frame.body⟩ := by
  rw [letterOf,h]
  exact if_pos hcommand

theorem letterOf_cases {arrival : Arrival} {letter : Letter} (h : letterOf arrival = some letter) :
    ∃ frame, ofString arrival.1.uninitialised arrival.2 = some (.kOk,frame) ∧ frame.command = .kSend ∧
      letter = ⟨frame.getHeaderValue .kDestination,frame.getHeaderValue .kId,frame.body⟩ := by
  rw [letterOf] at h
  split at h
  · rename_i frame hread
    split_ifs at h with hcommand
    exact ⟨frame,hread,hcommand,(Option.some.inj h).symm⟩
  · cases h

theorem letterOf_eq_none {text : Bytes} (h : commandOf text ≠ .kSend) (unspecified : Unspecified) :
    letterOf (unspecified,text) = none := by
  rw [letterOf]
  split
  · rename_i frame hread
    exact if_neg fun hcommand => h ((command_of_read hread).symm.trans hcommand)
  · rfl

namespace Letter

def headers (letter : Letter) : Headers :=
  messageHeaders letter.requestId letter.destination letter.content

/-- With the headers in any order. -/
def text (unspecified : Unspecified) (letter : Letter) : Bytes :=
  plainText .kSend (unspecified.arrange letter.headers) letter.content

structure Legal (letter : Letter) : Prop where
  requestId_ne_nil : letter.requestId ≠ []
  requestId_line : newLine ∉ letter.requestId
  destination_ne_nil : letter.destination ≠ []
  destination_line : newLine ∉ letter.destination
  content_fits : letter.content.length < 2^64

theorem Legal.components {letter : Letter} (h : letter.Legal) :
    LegalComponents .kSend letter.headers letter.content :=
  messageHeaders_legal h.requestId_ne_nil h.requestId_line h.destination_ne_nil h.destination_line
    h.content_fits

theorem Legal.letterOf_text {letter : Letter} (h : letter.Legal)
    (unspecified unspecified' : Unspecified) :
    letterOf (unspecified,letter.text unspecified') = some letter := by
  have hread := @LegalComponents.ofString_eq unspecified.uninitialised _ _ _
    (h.components.arrange unspecified') 0
  rw [List.replicate_zero,List.append_nil] at hread
  obtain ⟨hcommand,hheaders,hbody⟩ := @holds_frameOf .kSend (unspecified'.arrange letter.headers)
    letter.content (letter.text unspecified')
  rw [text,letterOf_eq_some hread hcommand]
  have hvalue : ∀ header value, letter.headers.find header = some value →
      (frameOf (letter.text unspecified') .kSend (unspecified'.arrange letter.headers).entries
        letter.content).getHeaderValue header = value := by
    intro header value hfind
    rw [getHeaderValue,hheaders header,Unspecified.find_arrange,hfind]
    rfl
  exact congrArg some (congrArg₂ (Letter.mk · · letter.content) (hvalue .kDestination _ rfl)
    (hvalue .kId _ rfl))

end Letter

/-- Texts that say some letters, whatever the parser's variables hold. -/
structure Says (texts : List Bytes) (letters : List Letter) : Prop where
  steady : ∀ text ∈ texts, ∀ unspecified, letterOf (unspecified,text) = letterOf (0,text)
  letters_eq : texts.filterMap (fun text => letterOf (0,text)) = letters

namespace Says

variable {texts texts' : List Bytes} {letters letters' : List Letter} {arrivals : List Arrival}

theorem nil : Says [] [] := ⟨by simp,rfl⟩

theorem letter {letter : Letter} (h : letter.Legal) (unspecified : Unspecified) :
    Says [letter.text unspecified] [letter] := by
  refine ⟨?_,by simp [h.letterOf_text]⟩
  intro text hmem unspecified'
  rw [List.mem_singleton.mp hmem,h.letterOf_text,h.letterOf_text]

theorem other {text : Bytes} (h : commandOf text ≠ .kSend) : Says [text] [] := by
  refine ⟨?_,by simp [letterOf_eq_none h]⟩
  intro text' hmem unspecified
  rw [List.mem_singleton.mp hmem,letterOf_eq_none h,letterOf_eq_none h]

theorem append (h : Says texts letters) (h' : Says texts' letters') :
    Says (texts ++ texts') (letters ++ letters') := by
  refine ⟨fun text hmem => ?_,by rw [List.filterMap_append,h.letters_eq,h'.letters_eq]⟩
  exact (List.mem_append.mp hmem).elim (h.steady text) (h'.steady text)

theorem filterMap_eq (h : Says texts letters) (harrivals : ∀ arrival ∈ arrivals, arrival.2 ∈ texts) :
    arrivals.filterMap letterOf =
      (arrivals.map Prod.snd).filterMap fun text => letterOf (0,text) := by
  rw [List.filterMap_map]
  exact List.filterMap_congr fun arrival hmem => h.steady arrival.2 (harrivals arrival hmem) arrival.1

theorem arrive_sublist (h : Says texts letters) (harrivals : (arrivals.map Prod.snd).Sublist texts) :
    (arrivals.filterMap letterOf).Sublist letters := by
  rw [h.filterMap_eq fun arrival hmem => harrivals.subset (List.mem_map_of_mem hmem),← h.letters_eq]
  exact harrivals.filterMap _

theorem arrive_eq (h : Says texts letters) (harrivals : arrivals.map Prod.snd ++ texts' = texts) :
    arrivals.filterMap letterOf ++ texts'.filterMap (fun text => letterOf (0,text)) = letters := by
  have hmem : ∀ arrival ∈ arrivals, arrival.2 ∈ texts := fun arrival hmem =>
    harrivals ▸ List.mem_append_left _ (List.mem_map_of_mem hmem)
  rw [h.filterMap_eq hmem,← List.filterMap_append,harrivals,h.letters_eq]

end Says

theorem assemble_message_error {requestId content : Bytes} (hid : newLine ∉ requestId)
    (unspecified : Unspecified) :
    (assemble unspecified .kSend (messageHeaders requestId [] content) content).1 ≠ .kOk := by
  intro hok
  have hcomponents := assemble_eq_iff.mp
    (Prod.ext hok rfl : assemble unspecified .kSend (messageHeaders requestId [] content) content =
      (.kOk,(assemble unspecified .kSend (messageHeaders requestId [] content) content).2))
  obtain ⟨command,hs,body,hread,-⟩ := ofString_ok_iff.mp hcomponents
  have hline : ∀ h ∈ (unspecified.arrange (messageHeaders requestId [] content)).entries,
      newLine ∉ h.2 := by
    have hdecimal := isNumeral_decimal content.length
    intro h hmem
    rw [unspecified.mem_arrange] at hmem
    simp only [messageHeaders,List.mem_cons,List.not_mem_nil,or_false] at hmem
    rcases hmem with rfl | rfl | rfl | rfl
    · exact hid
    · simp
    · decide +kernel
    · intro hdigit
      exact absurd (hdecimal.digits _ hdigit) (by decide)
  have hvalid := (parts_of_plainText hline hread.toHasParts).headers_valid (.kDestination,[])
    (unspecified.mem_arrange.mpr (by simp [messageHeaders]))
  exact hvalid.value_ne_nil rfl

end QuietRoute
