import QuietRoute.Stomp.FrameParsing
import Mathlib.Data.List.TakeWhile

/-! Which texts get the code `kOk`, and what their frames hold. -/
namespace QuietRoute

open StringView StompFrame

variable {uninitialised : ℕ} {text : Bytes} {command : StompCommand}
  {hs : List (StompHeader × Bytes)} {body : Bytes} {frame : StompFrame}

/-! The headers of a frame are the first occurrences of its header lines. -/

theorem find_addHeaders (headers : Headers) (hs : List (StompHeader × Bytes))
    (header : StompHeader) :
    (addHeaders headers hs).find header = (headers.find header).or (firstValue hs header) := by
  induction hs generalizing headers with
  | nil => simp [addHeaders,firstValue]
  | cons h hs ih =>
    have hrest := ih (headers.emplace h.1 h.2)
    rw [addHeaders,List.foldl_cons,← addHeaders,hrest,UnorderedMap.find_emplace]
    by_cases heq : h.1 = header
    · rw [if_pos heq,heq]
      cases hfind : headers.find header <;> simp [firstValue,heq]
    · rw [if_neg heq]
      simp [firstValue,heq]

@[simp] theorem find_addHeaders_empty (hs : List (StompHeader × Bytes)) (header : StompHeader) :
    (addHeaders .empty hs).find header = firstValue hs header := by
  rw [find_addHeaders,UnorderedMap.find_empty,Option.none_or]

theorem firstValue_isSome_iff {header : StompHeader} :
    (firstValue hs header).isSome ↔ ∃ h ∈ hs, h.1 = header := by
  simp [firstValue]

/-! Validation. -/

theorem validateFrame_ok_iff : frame.validateFrame uninitialised = .kOk ↔
    frame.command ≠ .kInvalid ∧ (requiredHeaders frame.command).all frame.hasHeader ∧
      ∀ contentLength, frame.headers.find .kContentLength = some contentLength →
        stoI contentLength uninitialised = (true,frame.body.length) := by
  rw [validateFrame]
  by_cases hcommand : frame.command = .kInvalid
  · simp [hcommand]
  · by_cases hrequired : (requiredHeaders frame.command).all frame.hasHeader
    · rw [if_neg hcommand,if_neg (not_not.mpr hrequired)]
      cases hfind : frame.headers.find .kContentLength with
      | none => simp [hcommand,hrequired,hasHeader,hfind]
      | some contentLength =>
        cases hlength : stoI contentLength uninitialised with
        | mk ok length =>
          cases ok with
          | false => simp [hasHeader,getHeaderValue,hfind,hlength]
          | true =>
            by_cases heq : length = frame.body.length <;>
              simp [hcommand,hrequired,hasHeader,getHeaderValue,hfind,hlength,heq]
    · rw [if_neg hcommand,if_pos hrequired]
      simp [hrequired]

theorem all_hasHeader_iff (hheaders : frame.headers = addHeaders .empty hs) :
    (requiredHeaders frame.command).all frame.hasHeader ↔ HasRequired frame.command hs := by
  simp only [List.all_eq_true,HasRequired,hasHeader,hheaders,find_addHeaders_empty,
    firstValue_isSome_iff]

/-- A frame of the grammar whose body has the length that both conversions of its content length
give, or has no NULL octet. -/
structure Readable (uninitialised : ℕ) (text : Bytes) (command : StompCommand)
    (hs : List (StompHeader × Bytes)) (body : Bytes) : Prop extends
    HasParts text command hs body where
  required : HasRequired command hs
  body_parsed : Delimits (addHeaders .empty hs) body
  body_validated : ∀ contentLength, firstValue hs .kContentLength = some contentLength →
    stoI contentLength uninitialised = (true,body.length)

def frameOf (text : Bytes) (command : StompCommand) (hs : List (StompHeader × Bytes))
    (body : Bytes) : StompFrame := ⟨text,command,addHeaders .empty hs,body⟩

theorem ofString_of_parseFrame {headers : Headers}
    (h : parseFrame text = .ok (command,headers,body)) : ofString uninitialised text =
      some (validateFrame uninitialised ⟨text,command,headers,body⟩,⟨text,command,headers,body⟩) := by
  simp only [ofString,parseAndValidateFrame,h]

theorem ofString_ok_iff : ofString uninitialised text = some (.kOk,frame) ↔
    ∃ command hs body, Readable uninitialised text command hs body ∧
      frame = frameOf text command hs body := by
  constructor
  · intro hok
    cases hparse : parseFrame text with
    | error failure =>
      simp only [ofString,parseAndValidateFrame,hparse] at hok
      cases failure with
      | outOfRange => cases hok
      | error ec =>
        have hec : ec = .kOk := congrArg Prod.fst (Option.some.inj hok)
        exact absurd (hec ▸ hparse) (endsWell_parseFrame text)
    | ok parsed =>
      obtain ⟨command,headers,body⟩ := parsed
      rw [ofString_of_parseFrame hparse] at hok
      obtain ⟨hvalid,rfl⟩ := Prod.mk.inj (Option.some.inj hok)
      obtain ⟨hs,hparts,hbody,rfl⟩ := parseFrame_ok_iff.mp hparse
      obtain ⟨-,hrequired,hlength⟩ := validateFrame_ok_iff.mp hvalid
      simp only [find_addHeaders_empty] at hlength
      exact ⟨command,hs,body,⟨hparts,(all_hasHeader_iff rfl).mp hrequired,hbody,hlength⟩,rfl⟩
  · rintro ⟨command,hs,body,hread,rfl⟩
    have hparse := parseFrame_parts hread.toHasParts hread.body_parsed
    have hvalid : (frameOf text command hs body).validateFrame uninitialised = .kOk := by
      rw [validateFrame_ok_iff]
      refine ⟨hread.command_known,(all_hasHeader_iff rfl).mpr hread.required,?_⟩
      simpa only [frameOf,find_addHeaders_empty] using hread.body_validated
    rw [ofString_of_parseFrame hparse,← frameOf,hvalid]

/-! Texts that get no error code at all. -/

theorem ofString_eq_none_iff : ofString uninitialised text = none ↔ EndsAfterColon text := by
  rw [← parseFrame_throws_iff,ofString,parseAndValidateFrame]
  cases hparse : parseFrame text with
  | ok parsed => simp
  | error failure => cases failure <;> simp

/-- Exactly the texts that stop after the colon of a header line leave the constructor by an
exception. -/
theorem ofString_returns_iff (uninitialised : ℕ) (text : Bytes) :
    ofString uninitialised text ≠ none ↔ ¬EndsAfterColon text :=
  not_congr ofString_eq_none_iff

theorem ofString_throws_connect :
    ¬∀ (uninitialised : ℕ) (text : Bytes), ofString uninitialised text ≠ none := by
  intro hreturns
  apply hreturns 0 (ascii "CONNECT\naccept-version:")
  decide +kernel

/-! Frames without a content length. -/

/-- A frame whose body ends at its only NULL octet. -/
structure NullDelimited (text : Bytes) (command : StompCommand) (hs : List (StompHeader × Bytes))
    (body : Bytes) : Prop extends HasParts text command hs body where
  required : HasRequired command hs
  null_not_mem : null ∉ body

theorem readable_iff_nullDelimited (h : firstHeader text .kContentLength = none) :
    Readable uninitialised text command hs body ↔ NullDelimited text command hs body := by
  constructor
  · intro hread
    have hnone := (firstHeader_eq hread.toHasParts (by decide)).symm.trans h
    have hbody := hread.body_parsed
    rw [Delimits,find_addHeaders_empty,hnone] at hbody
    exact ⟨hread.toHasParts,hread.required,hbody⟩
  · intro hnull
    have hnone := (firstHeader_eq hnull.toHasParts (by decide)).symm.trans h
    refine ⟨hnull.toHasParts,hnull.required,?_,?_⟩
    · rw [Delimits,find_addHeaders_empty,hnone]
      exact hnull.null_not_mem
    · intro contentLength hsome
      rw [hnone] at hsome
      cases hsome

theorem frameOf_says (text : Bytes) (command : StompCommand) (hs : List (StompHeader × Bytes))
    (body : Bytes) : (frameOf text command hs body).command = command ∧
      (∀ header, (frameOf text command hs body).hasHeader header ↔ ∃ h ∈ hs, h.1 = header) ∧
      (∀ header value, firstValue hs header = some value →
        (frameOf text command hs body).getHeaderValue header = value) ∧
      (frameOf text command hs body).body = body := by
  refine ⟨rfl,?_,?_,rfl⟩
  · intro header
    rw [hasHeader,frameOf,find_addHeaders_empty,firstValue_isSome_iff]
  · intro header value hvalue
    rw [getHeaderValue,frameOf,find_addHeaders_empty,hvalue,Option.getD_some]

theorem ofString_nullDelimited (uninitialised : ℕ) (text : Bytes)
    (h : firstHeader text .kContentLength = none) :
    ((∃ frame, ofString uninitialised text = some (.kOk,frame)) ↔
      ∃ command hs body, NullDelimited text command hs body) ∧
    ∀ frame command hs body, ofString uninitialised text = some (.kOk,frame) →
      NullDelimited text command hs body →
      frame.command = command ∧ (∀ header, frame.hasHeader header ↔ ∃ e ∈ hs, e.1 = header) ∧
        (∀ header value, firstValue hs header = some value →
          frame.getHeaderValue header = value) ∧ frame.body = body := by
  simp only [ofString_ok_iff,readable_iff_nullDelimited h]
  constructor
  · constructor
    · rintro ⟨-,command,hs,body,hnull,-⟩
      exact ⟨command,hs,body,hnull⟩
    · rintro ⟨command,hs,body,hnull⟩
      exact ⟨_,command,hs,body,hnull,rfl⟩
  · rintro frame command hs body ⟨command',hs',body',hnull',rfl⟩ hnull
    obtain ⟨rfl,rfl,rfl⟩ := hnull.unique hnull'.toHasParts
    exact frameOf_says text command hs body

/-- The value of the destination is read up to the end of its line. -/
theorem ofString_nullDelimited_send : ∃ frame,
    ofString 0 (ascii "SEND\ndestination:/a:b\n\nhi\x00\n") = some (.kOk,frame) ∧
      frame.command = .kSend ∧ frame.getHeaderValue .kDestination = ascii "/a:b" ∧
        frame.body = ascii "hi" := by
  have hnull : NullDelimited (ascii "SEND\ndestination:/a:b\n\nhi\x00\n") .kSend
      [(.kDestination,ascii "/a:b")] (ascii "hi") := by
    refine ⟨⟨by decide,fun h hmem => ?_,1,by decide +kernel⟩,by simp [HasRequired,requiredHeaders],
      by decide +kernel⟩
    rw [List.mem_singleton.mp hmem]
    exact ⟨by decide,by decide +kernel,by decide +kernel⟩
  obtain ⟨haccepted,haccessors⟩ :=
    ofString_nullDelimited 0 (ascii "SEND\ndestination:/a:b\n\nhi\x00\n") (by decide +kernel)
  obtain ⟨frame,hframe⟩ := haccepted.mpr ⟨_,_,_,hnull⟩
  obtain ⟨hcommand,-,hvalues,hbody⟩ := haccessors frame _ _ _ hframe hnull
  exact ⟨frame,hframe,hcommand,hvalues .kDestination _ rfl,hbody⟩

/-! Frames with a content length. -/

theorem stoI_eq_iff {string : Bytes} {result n : ℕ} : stoI string result = (true,n) ↔
    string.takeWhile isDigit ≠ [] ∧
      (decimalValue (string.takeWhile isDigit) < 2^64 ∧
          decimalValue (string.takeWhile isDigit) = n ∨
        2^64 ≤ decimalValue (string.takeWhile isDigit) ∧ result = n) := by
  simp only [stoI]
  split_ifs with hnil hlt
  · simp [hnil]
  · simp only [Prod.mk.injEq,true_and,ne_eq,hnil,not_false_eq_true]
    omega
  · simp only [Prod.mk.injEq,true_and,ne_eq,hnil,not_false_eq_true]
    omega

/-- A frame whose content length is the decimal number of bytes of its body. -/
structure LengthDelimited (text contentLength : Bytes) (command : StompCommand)
    (hs : List (StompHeader × Bytes)) (body : Bytes) : Prop extends
    HasParts text command hs body where
  required : HasRequired command hs
  length_ne_nil : contentLength ≠ []
  length_digits : ∀ c ∈ contentLength, isDigit c
  length_eq : decimalValue contentLength = body.length

def ReadsContentLength (uninitialised : ℕ) (text contentLength : Bytes) : Prop :=
  ((∃ frame, ofString uninitialised text = some (.kOk,frame)) ↔
    ∃ command hs body, LengthDelimited text contentLength command hs body) ∧
  ∀ frame command hs body, ofString uninitialised text = some (.kOk,frame) →
    LengthDelimited text contentLength command hs body → frame.body = body

/-- A frame whose content length only starts with the number of bytes of its body, or starts with
a number too large to convert, while the body is empty and the variable that the second conversion
leaves alone is 0. -/
def MisleadingLength (uninitialised : ℕ) (text contentLength : Bytes) : Prop :=
  ∃ command hs body, HasParts text command hs body ∧ HasRequired command hs ∧
    contentLength.takeWhile isDigit ≠ [] ∧
      (decimalValue (contentLength.takeWhile isDigit) = body.length ∧
          (∃ c ∈ contentLength, isDigit c = false) ∨
        2^64 ≤ decimalValue (contentLength.takeWhile isDigit) ∧ body = [] ∧ uninitialised = 0)

theorem takeWhile_isDigit {contentLength : Bytes} (h : ∀ c ∈ contentLength, isDigit c) :
    contentLength.takeWhile isDigit = contentLength := List.takeWhile_eq_self_iff.mpr h

theorem HasParts.body_length_lt (h : HasParts text command hs body) :
    body.length < text.length := by
  obtain ⟨n,htext⟩ := h.text_eq
  rw [htext]
  simp only [List.length_append,List.length_cons]
  omega

theorem readable_iff_length {contentLength : Bytes}
    (h : firstHeader text .kContentLength = some contentLength) :
    Readable uninitialised text command hs body ↔ HasParts text command hs body ∧
      HasRequired command hs ∧ stoI contentLength 0 = (true,body.length) ∧
        stoI contentLength uninitialised = (true,body.length) := by
  constructor
  · intro hread
    have hfirst := (firstHeader_eq hread.toHasParts (by decide)).symm.trans h
    have hparsed := hread.body_parsed
    rw [Delimits,find_addHeaders_empty,hfirst] at hparsed
    exact ⟨hread.toHasParts,hread.required,hparsed,hread.body_validated _ hfirst⟩
  · rintro ⟨hparts,hrequired,hparsed,hvalidated⟩
    have hfirst := (firstHeader_eq hparts (by decide)).symm.trans h
    refine ⟨hparts,hrequired,?_,?_⟩
    · rw [Delimits,find_addHeaders_empty,hfirst]
      exact hparsed
    · intro v hv
      rw [hfirst] at hv
      rwa [← Option.some.inj hv]

theorem LengthDelimited.readable {contentLength : Bytes}
    (h : firstHeader text .kContentLength = some contentLength) (hlen : text.length < 2^64)
    (hlength : LengthDelimited text contentLength command hs body) :
    Readable uninitialised text command hs body := by
  have hstoI : ∀ result, stoI contentLength result = (true,body.length) := by
    intro result
    have hfits := hlength.body_length_lt
    rw [stoI_eq_iff,takeWhile_isDigit hlength.length_digits,hlength.length_eq]
    exact ⟨hlength.length_ne_nil,Or.inl ⟨by omega,rfl⟩⟩
  rw [readable_iff_length h]
  exact ⟨hlength.toHasParts,hlength.required,hstoI 0,hstoI uninitialised⟩

theorem Readable.delimited_or_misleading {contentLength : Bytes}
    (h : firstHeader text .kContentLength = some contentLength)
    (hread : Readable uninitialised text command hs body) :
    LengthDelimited text contentLength command hs body ∨
      MisleadingLength uninitialised text contentLength := by
  obtain ⟨hparts,hrequired,hparsed,hvalidated⟩ := (readable_iff_length h).mp hread
  obtain ⟨hne,hparsed⟩ := stoI_eq_iff.mp hparsed
  obtain ⟨-,hvalidated⟩ := stoI_eq_iff.mp hvalidated
  by_cases hsmall : decimalValue (contentLength.takeWhile isDigit) < 2^64
  · have hvalue : decimalValue (contentLength.takeWhile isDigit) = body.length := by omega
    by_cases hdigits : ∀ c ∈ contentLength, isDigit c
    · left
      rw [takeWhile_isDigit hdigits] at hne hvalue
      exact ⟨hparts,hrequired,hne,hdigits,hvalue⟩
    · right
      have hjunk : ∃ c ∈ contentLength, isDigit c = false := by simpa using hdigits
      exact ⟨command,hs,body,hparts,hrequired,hne,Or.inl ⟨hvalue,hjunk⟩⟩
  · right
    have hbody : body = [] := List.length_eq_zero_iff.mp (by omega)
    have hzero : uninitialised = 0 := by
      rw [hbody,List.length_nil] at hvalidated
      omega
    exact ⟨command,hs,body,hparts,hrequired,hne,Or.inr ⟨by omega,hbody,hzero⟩⟩

theorem MisleadingLength.accepted {contentLength : Bytes}
    (h : firstHeader text .kContentLength = some contentLength) (hlen : text.length < 2^64)
    (hmislead : MisleadingLength uninitialised text contentLength) :
    (∃ command hs body, Readable uninitialised text command hs body) ∧
      ¬∃ command hs body, LengthDelimited text contentLength command hs body := by
  obtain ⟨command,hs,body,hparts,hrequired,hne,hcases⟩ := hmislead
  have hfits := hparts.body_length_lt
  have hstoI : ∀ result, result = 0 ∨ result = uninitialised →
      stoI contentLength result = (true,body.length) := by
    intro result hresult
    rw [stoI_eq_iff]
    refine ⟨hne,?_⟩
    cases hcases with
    | inl hjunk => exact Or.inl ⟨by omega,hjunk.1⟩
    | inr hlarge =>
      obtain ⟨hlarge,hbody,hzero⟩ := hlarge
      right
      refine ⟨hlarge,?_⟩
      rw [hbody,List.length_nil]
      omega
  constructor
  · refine ⟨command,hs,body,?_⟩
    rw [readable_iff_length h]
    exact ⟨hparts,hrequired,hstoI 0 (Or.inl rfl),hstoI uninitialised (Or.inr rfl)⟩
  · rintro ⟨command',hs',body',hlength⟩
    obtain ⟨-,-,rfl⟩ := hparts.unique hlength.toHasParts
    cases hcases with
    | inl hjunk =>
      obtain ⟨-,c,hmem,hc⟩ := hjunk
      exact absurd (hlength.length_digits c hmem) (by simp [hc])
    | inr hlarge =>
      have hvalue := hlength.length_eq
      rw [takeWhile_isDigit hlength.length_digits] at hlarge
      omega

/-- The content length is read as it is written unless it misleads. -/
theorem readsContentLength_iff (uninitialised : ℕ) (text contentLength : Bytes)
    (h : firstHeader text .kContentLength = some contentLength) (hlen : text.length < 2^64) :
    ReadsContentLength uninitialised text contentLength ↔
      ¬MisleadingLength uninitialised text contentLength := by
  constructor
  · intro hreads hmislead
    obtain ⟨⟨command,hs,body,hread⟩,hno⟩ := hmislead.accepted h hlen
    exact hno (hreads.1.mp ⟨_,ofString_ok_iff.mpr ⟨command,hs,body,hread,rfl⟩⟩)
  · intro hmislead
    have hlengthOf : ∀ {command hs body}, Readable uninitialised text command hs body →
        LengthDelimited text contentLength command hs body := by
      intro command hs body hread
      exact (hread.delimited_or_misleading h).resolve_right hmislead
    refine ⟨⟨?_,?_⟩,?_⟩
    · rintro ⟨frame,hok⟩
      obtain ⟨command,hs,body,hread,-⟩ := ofString_ok_iff.mp hok
      exact ⟨command,hs,body,hlengthOf hread⟩
    · rintro ⟨command,hs,body,hlength⟩
      exact ⟨_,ofString_ok_iff.mpr ⟨command,hs,body,hlength.readable h hlen,rfl⟩⟩
    · intro frame command hs body hok hlength
      obtain ⟨command',hs',body',hread,rfl⟩ := ofString_ok_iff.mp hok
      exact (hread.unique hlength.toHasParts).2.2

/-- The NULL octet in the body is not its end. -/
theorem readsContentLength_send : ∃ frame,
    ofString 7 (ascii "SEND\ndestination:/a\ncontent-length:3\n\nh\x00i\x00") = some (.kOk,frame) ∧
      frame.body = ascii "h\x00i" := by
  have hlength : LengthDelimited (ascii "SEND\ndestination:/a\ncontent-length:3\n\nh\x00i\x00")
      (ascii "3") .kSend [(.kDestination,ascii "/a"),(.kContentLength,ascii "3")]
      (ascii "h\x00i") := by
    refine ⟨⟨by decide,?_,0,by decide +kernel⟩,by simp [HasRequired,requiredHeaders],
      by decide +kernel,by decide +kernel,by decide +kernel⟩
    intro h hmem
    simp only [List.mem_cons,List.not_mem_nil,or_false] at hmem
    rcases hmem with rfl | rfl
    · exact ⟨by decide,by decide +kernel,by decide +kernel⟩
    · exact ⟨by decide,by decide +kernel,by decide +kernel⟩
  have hmislead : ¬MisleadingLength 7
      (ascii "SEND\ndestination:/a\ncontent-length:3\n\nh\x00i\x00") (ascii "3") := by
    rintro ⟨command,hs,body,-,-,-,⟨-,c,hmem,hdigit⟩ | ⟨hlarge,-⟩⟩
    · have hdigits : ∀ c ∈ ascii "3", isDigit c = true := by decide +kernel
      rw [hdigits c hmem] at hdigit
      cases hdigit
    · exact absurd hlarge (by decide +kernel)
  obtain ⟨haccepted,hbody⟩ := (readsContentLength_iff 7
    (ascii "SEND\ndestination:/a\ncontent-length:3\n\nh\x00i\x00") (ascii "3") (by decide +kernel)
    (by decide +kernel)).mpr hmislead
  obtain ⟨frame,hframe⟩ := haccepted.mpr ⟨_,_,_,hlength⟩
  exact ⟨frame,hframe,hbody frame _ _ _ hframe hlength⟩

/-- The content length `2x` passes for 2. -/
theorem misread_content_length : ¬∀ (uninitialised : ℕ) (text contentLength : Bytes),
    firstHeader text .kContentLength = some contentLength →
      ReadsContentLength uninitialised text contentLength := by
  intro hreads
  have hsend := hreads 0 (ascii "SEND\ndestination:/a\ncontent-length:2x\n\nhi\x00") (ascii "2x")
    (by decide +kernel)
  have haccepted : ((ofString 0 (ascii "SEND\ndestination:/a\ncontent-length:2x\n\nhi\x00")).map
      Prod.fst) = some .kOk := by decide +kernel
  obtain ⟨⟨ec,frame⟩,hframe,hec⟩ := Option.map_eq_some_iff.mp haccepted
  obtain ⟨command,hs,body,hlength⟩ := hsend.1.mp ⟨frame,by rw [hframe,← hec]⟩
  exact absurd (hlength.length_digits 120 (by decide)) (by decide)

end QuietRoute
