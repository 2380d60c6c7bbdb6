import QuietRoute.Stomp.FrameAcceptance

/-! Frames built from components: what an accepted one says about its arguments, for every order
in which the headers are written. -/
namespace QuietRoute

open StringView StompFrame

variable {uninitialised : ℕ} {command : StompCommand} {headers : Headers} {body : Bytes}

theorem plainText_eq (command : StompCommand) (headers : Headers) (body : Bytes) :
    plainText command headers body = frameHead command headers.entries ++ newLine::(body ++ [null]) := by
  simp [plainText,frameHead]

theorem hasParts_plainText (hcommand : command ≠ .kInvalid)
    (hvalid : ∀ h ∈ headers.entries, ValidHeader h) :
    HasParts (plainText command headers body) command headers.entries body :=
  ⟨hcommand,hvalid,0,plainText_eq command headers body⟩

theorem firstValue_entries (headers : Headers) (header : StompHeader) :
    firstValue headers.entries header = headers.find header := by
  rw [UnorderedMap.find]
  induction headers.entries with
  | nil => rfl
  | cons h hs ih =>
    by_cases heq : h.1 = header
    · simp [firstValue,UnorderedMap.lookup,heq]
    · simpa [firstValue,UnorderedMap.lookup,heq] using ih

theorem lineText_known {h e : StompHeader × Bytes} (hvalid : ValidHeader h)
    (heq : lineText h = lineText e) : e.1 ≠ .kInvalid := by
  intro hinvalid
  have hname : lineText e = ascii "StompHeader" ++ colon::(colon::(ascii "kInvalid" ++ colon::e.2)) := by
    rw [lineText,hinvalid]
    rfl
  have hcut := heq.trans hname
  rw [lineText] at hcut
  obtain ⟨hstring,-⟩ := cut_unique hcut (colon_not_mem_header hvalid.known) (by decide +kernel)
  have hknown := hvalid.known
  rw [← toHeader_toString h.1,hstring] at hknown
  exact hknown (by decide +kernel)

theorem ValidHeader.of_lineText {h e : StompHeader × Bytes} (hvalid : ValidHeader h)
    (heq : lineText h = lineText e) : ValidHeader e := by
  have hcut := heq
  rw [lineText,lineText] at hcut
  obtain ⟨hname,hvalue⟩ := cut_unique hcut (colon_not_mem_header hvalid.known)
    (colon_not_mem_header (lineText_known hvalid heq))
  have hsame : h = e := by
    apply Prod.ext _ hvalue
    rw [← toHeader_toString h.1,hname,toHeader_toString]
  rwa [← hsame]

theorem validHeaders_of_lines {hs es : List (StompHeader × Bytes)} {rest rest' : Bytes}
    (hvalid : ∀ h ∈ hs, ValidHeader h) (hline : ∀ e ∈ es, newLine ∉ e.2)
    (heq : hs.flatMap headerLine ++ newLine::rest = es.flatMap headerLine ++ newLine::rest') :
    ∀ e ∈ es, ValidHeader e := by
  induction es generalizing hs with
  | nil => simp
  | cons e es ih =>
    cases hs with
    | nil =>
      rw [List.flatMap_cons,List.append_assoc] at heq
      exact absurd heq.symm (headerLine_ne_blank e _ _)
    | cons h hs =>
      have hcut : lineText h ++ newLine::(hs.flatMap headerLine ++ newLine::rest) =
          lineText e ++ newLine::(es.flatMap headerLine ++ newLine::rest') := by
        simpa [headerLine,lineText] using heq
      have hh := hvalid h List.mem_cons_self
      obtain ⟨htext,hrest⟩ := cut_unique hcut (newLine_not_mem_lineText hh.value_line)
        (newLine_not_mem_lineText (hline e List.mem_cons_self))
      have htail := ih (fun a ha => hvalid a (List.mem_cons_of_mem h ha))
        (fun a ha => hline a (List.mem_cons_of_mem e ha)) hrest
      intro a ha
      cases ha with
      | head => exact hh.of_lineText htext
      | tail _ hmem => exact htail a hmem

/-- Without newlines in the values, the text has the parts it was assembled from or none. -/
theorem parts_of_plainText (hline : ∀ h ∈ headers.entries, newLine ∉ h.2) {command' : StompCommand}
    {hs : List (StompHeader × Bytes)} {body' : Bytes}
    (hparts : HasParts (plainText command headers body) command' hs body') :
    HasParts (plainText command headers body) command headers.entries body := by
  obtain ⟨n,htext⟩ := hparts.text_eq
  rw [plainText_eq] at htext
  simp only [frameHead,List.append_assoc,List.cons_append] at htext
  obtain ⟨hname,hlines⟩ := cut_unique htext (newLine_not_mem_command command)
    (newLine_not_mem_command command')
  have hcommand : command = command' := by
    rw [← toCommand_toString command,hname,toCommand_toString]
  apply hasParts_plainText
  · rw [hcommand]
    exact hparts.command_known
  · exact validHeaders_of_lines hparts.headers_valid hline hlines.symm

def SaysComponents (uninitialised : ℕ) (command : StompCommand) (headers : Headers) (body : Bytes) :
    Prop :=
  ∀ frame, ofComponents uninitialised command headers body = some (.kOk,frame) →
    frame.command = command ∧
      (∀ header, frame.hasHeader header ↔ (headers.find header).isSome) ∧
      (∀ header value, headers.find header = some value → frame.getHeaderValue header = value) ∧
      frame.body = body

theorem saysComponents_of_lines (hline : ∀ h ∈ headers.entries, newLine ∉ h.2) :
    SaysComponents uninitialised command headers body := by
  intro frame hok
  obtain ⟨command',hs,body',hread,rfl⟩ := ofString_ok_iff.mp hok
  have hparts := parts_of_plainText hline hread.toHasParts
  obtain ⟨rfl,rfl,rfl⟩ := hparts.unique hread.toHasParts
  obtain ⟨hcommand,hheaders,hvalues,hbody⟩ :=
    frameOf_says (plainText command headers body) command headers.entries body
  refine ⟨hcommand,?_,?_,hbody⟩
  · intro header
    rw [hheaders,← firstValue_entries,firstValue_isSome_iff]
  · intro header value hvalue
    exact hvalues header value ((firstValue_entries headers header).trans hvalue)

theorem newLine_not_mem_getHeaderValue {text : Bytes} {hs : List (StompHeader × Bytes)}
    (hvalid : ∀ h ∈ hs, ValidHeader h) (header : StompHeader) :
    newLine ∉ (frameOf text command hs body).getHeaderValue header := by
  rw [getHeaderValue,frameOf,find_addHeaders_empty,firstValue]
  cases hfind : hs.find? fun h => h.1 = header with
  | none => simp
  | some h => exact (hvalid h (List.mem_of_find?_eq_some hfind)).value_line

/-- Only a newline in a header value can make an accepted frame say something else, and then it
always does. -/
theorem saysComponents_iff (uninitialised : ℕ) (command : StompCommand) (headers : Headers)
    (body : Bytes) : SaysComponents uninitialised command headers body ↔
      (∀ h ∈ headers.entries, newLine ∉ h.2) ∨
        ¬∃ command' hs body', Readable uninitialised (plainText command headers body) command' hs
          body' := by
  constructor
  · intro hsays
    by_cases hread : ∃ command' hs body',
        Readable uninitialised (plainText command headers body) command' hs body'
    · left
      obtain ⟨command',hs,body',hread⟩ := hread
      obtain ⟨-,-,hvalues,-⟩ := hsays _ (ofString_ok_iff.mpr ⟨command',hs,body',hread,rfl⟩)
      intro h hmem
      rw [← hvalues h.1 h.2 (headers.find_eq_some_iff.mpr hmem)]
      exact newLine_not_mem_getHeaderValue hread.headers_valid h.1
    · exact Or.inr hread
  · intro hcases
    cases hcases with
    | inl hline => exact saysComponents_of_lines hline
    | inr hno =>
      intro frame hok
      obtain ⟨command',hs,body',hread,-⟩ := ofString_ok_iff.mp hok
      exact absurd ⟨command',hs,body',hread⟩ hno

/-- A destination that goes on to the next line adds a receipt header. -/
theorem receipt_injected : ¬∀ (uninitialised : ℕ) (command : StompCommand) (headers : Headers)
    (body : Bytes), SaysComponents uninitialised command headers body := by
  intro hsays
  have hsend := hsays 0 .kSend ⟨[(.kDestination,ascii "/x\nreceipt:1")],by decide⟩ []
  have haccepted : (ofComponents 0 .kSend ⟨[(.kDestination,ascii "/x\nreceipt:1")],by decide⟩ []).map
      (fun r => (r.1,r.2.hasHeader .kReceipt)) = some (.kOk,true) := by decide +kernel
  obtain ⟨⟨ec,frame⟩,hframe,hec⟩ := Option.map_eq_some_iff.mp haccepted
  obtain ⟨rfl,hreceipt⟩ := Prod.mk.inj hec
  obtain ⟨-,hheaders,-⟩ := hsend frame hframe
  exact absurd ((hheaders .kReceipt).mp hreceipt) (by decide)

/-! Every text that is assembled from components ends with its NULL octet, and gets an error code. -/

theorem ofComponents_isSome (uninitialised : ℕ) (command : StompCommand) (headers : Headers)
    (body : Bytes) : (ofComponents uninitialised command headers body).isSome := by
  rw [Option.isSome_iff_ne_none,ne_eq,ofComponents,ofString_eq_none_iff]
  rintro ⟨command',hs,header,-,-,-,htext⟩
  have hlast := congrArg List.getLast? htext
  simp only [plainText,← List.append_assoc,List.getLast?_append,List.getLast?_singleton,
    Option.some_or,Option.some.injEq] at hlast
  exact absurd hlast (by decide)

/-! What the language leaves open. -/

/-- What a call leaves to the platform: what an uninitialised variable of the parser holds, and in
which order the headers of a frame that is built are iterated over. -/
structure Unspecified where
  uninitialised : ℕ
  iterate : List (StompHeader × Bytes) → List (StompHeader × Bytes)
  iterate_perm : ∀ entries, (iterate entries).Perm entries

namespace Unspecified

def inserted (uninitialised : ℕ) : Unspecified := ⟨uninitialised,id,fun _ => List.Perm.refl _⟩

instance (n : ℕ) : OfNat Unspecified n := ⟨inserted n⟩

variable (unspecified : Unspecified)

def arrange (headers : Headers) : Headers where
  entries := unspecified.iterate headers.entries
  nodup := ((unspecified.iterate_perm headers.entries).map Prod.fst).nodup_iff.mpr headers.nodup

theorem mem_arrange {headers : Headers} {h : StompHeader × Bytes} :
    h ∈ (unspecified.arrange headers).entries ↔ h ∈ headers.entries :=
  (unspecified.iterate_perm headers.entries).mem_iff

@[simp] theorem find_arrange (headers : Headers) (header : StompHeader) :
    (unspecified.arrange headers).find header = headers.find header := by
  apply Option.ext
  intro value
  rw [UnorderedMap.find_eq_some_iff,UnorderedMap.find_eq_some_iff,mem_arrange]

end Unspecified

/-- The constructor from components with the error code that it sets. -/
@[irreducible] def StompFrame.assemble (unspecified : Unspecified) (command : StompCommand)
    (headers : Headers) (body : Bytes) : StompError × StompFrame :=
  (ofComponents unspecified.uninitialised command (unspecified.arrange headers) body).get
    (ofComponents_isSome _ command (unspecified.arrange headers) body)

theorem assemble_eq_iff {unspecified : Unspecified} {r : StompError × StompFrame} :
    assemble unspecified command headers body = r ↔
      ofComponents unspecified.uninitialised command (unspecified.arrange headers) body = some r := by
  rw [assemble,Option.eq_some_iff_get_eq]
  simp [ofComponents_isSome]

end QuietRoute
