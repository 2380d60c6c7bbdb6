import QuietRoute.Stomp.FrameComponents

/-! Frames of legal components: they are always built, and reading their texts gives the components
back. -/
namespace QuietRoute

open StringView StompFrame

variable {uninitialised : ℕ} {command : StompCommand} {headers : Headers} {body : Bytes}

/-- `contentLength` is `n` in decimal, leading zeros included. -/
structure IsNumeral (contentLength : Bytes) (n : ℕ) : Prop where
  ne_nil : contentLength ≠ []
  digits : ∀ c ∈ contentLength, isDigit c
  value_eq : decimalValue contentLength = n

theorem IsNumeral.stoI_eq {contentLength : Bytes} {n : ℕ} (h : IsNumeral contentLength n)
    (hn : n < 2^64) (result : ℕ) : stoI contentLength result = (true,n) := by
  rw [stoI_eq_iff,takeWhile_isDigit h.digits,h.value_eq]
  exact ⟨h.ne_nil,Or.inl ⟨hn,rfl⟩⟩

structure LegalComponents (command : StompCommand) (headers : Headers) (body : Bytes) : Prop where
  command_known : command ≠ .kInvalid
  headers_valid : ∀ h ∈ headers.entries, ValidHeader h
  required : ∀ header ∈ requiredHeaders command, (headers.find header).isSome
  delimited : null ∉ body ∨ (headers.find .kContentLength).isSome
  contentLength : ∀ value, headers.find .kContentLength = some value →
    IsNumeral value body.length
  body_fits : body.length < 2^64

theorem LegalComponents.of_headers {hs : List (StompHeader × Bytes)} {hnodup : (hs.map Prod.fst).Nodup}
    (hcommand : command ≠ .kInvalid) (hvalid : ∀ h ∈ hs, ValidHeader h)
    (hrequired : ∀ header ∈ requiredHeaders command, header ∈ hs.map Prod.fst)
    (hlength : .kContentLength ∉ hs.map Prod.fst) (hbody : null ∉ body)
    (hfits : body.length < 2^64) : LegalComponents command ⟨hs,hnodup⟩ body where
  command_known := hcommand
  headers_valid := hvalid
  required header hmem := by
    rw [Option.isSome_iff_ne_none,ne_eq,UnorderedMap.find_eq_none_iff]
    exact not_not.mpr (hrequired header hmem)
  delimited := Or.inl hbody
  contentLength value hvalue := by
    rw [(UnorderedMap.find_eq_none_iff _).mpr hlength] at hvalue
    cases hvalue
  body_fits := hfits

theorem LegalComponents.readable (h : LegalComponents command headers body) (n : ℕ) :
    Readable uninitialised (plainText command headers body ++ List.replicate n newLine) command
      headers.entries body := by
  refine ⟨⟨h.command_known,h.headers_valid,n,by simp [plainText_eq]⟩,?_,?_,?_⟩
  · intro header hmem
    rw [← firstValue_isSome_iff,firstValue_entries]
    exact h.required header hmem
  · rw [Delimits,find_addHeaders_empty,firstValue_entries]
    cases hfind : headers.find .kContentLength with
    | none => exact h.delimited.resolve_right (by simp [hfind])
    | some value => exact (h.contentLength value hfind).stoI_eq h.body_fits 0
  · intro value hvalue
    rw [firstValue_entries] at hvalue
    exact (h.contentLength value hvalue).stoI_eq h.body_fits uninitialised

theorem LegalComponents.ofString_eq (h : LegalComponents command headers body) (n : ℕ) :
    ofString uninitialised (plainText command headers body ++ List.replicate n newLine) =
      some (.kOk,frameOf (plainText command headers body ++ List.replicate n newLine) command
        headers.entries body) :=
  ofString_ok_iff.mpr ⟨command,headers.entries,body,h.readable n,rfl⟩

theorem LegalComponents.ofComponents_eq (h : LegalComponents command headers body) :
    ofComponents uninitialised command headers body =
      some (.kOk,frameOf (plainText command headers body) command headers.entries body) := by
  have hread := @LegalComponents.ofString_eq uninitialised _ _ _ h 0
  rwa [List.replicate_zero,List.append_nil] at hread

theorem LegalComponents.arrange (h : LegalComponents command headers body) (unspecified : Unspecified) :
    LegalComponents command (unspecified.arrange headers) body where
  command_known := h.command_known
  headers_valid header hmem := h.headers_valid header (unspecified.mem_arrange.mp hmem)
  required header hmem := by
    rw [unspecified.find_arrange]
    exact h.required header hmem
  delimited := by
    rw [unspecified.find_arrange]
    exact h.delimited
  contentLength value hvalue := h.contentLength value (by rwa [unspecified.find_arrange] at hvalue)
  body_fits := h.body_fits

theorem LegalComponents.assemble_eq {unspecified : Unspecified}
    (h : LegalComponents command headers body) :
    assemble unspecified command headers body =
      (.kOk,frameOf (plainText command (unspecified.arrange headers) body) command
        (unspecified.arrange headers).entries body) := by
  rw [assemble_eq_iff]
  exact (h.arrange unspecified).ofComponents_eq

def Holds (frame : StompFrame) (command : StompCommand) (headers : Headers) (body : Bytes) : Prop :=
  frame.command = command ∧ (∀ header, frame.headers.find header = headers.find header) ∧
    frame.body = body

theorem holds_frameOf (text : Bytes) :
    Holds (frameOf text command headers.entries body) command headers body := by
  refine ⟨rfl,fun header => ?_,rfl⟩
  rw [frameOf,find_addHeaders_empty,firstValue_entries]

/-- Legal components make a frame, in every order of the headers, and its text reads as them. -/
theorem ofComponents_roundTrip (h : LegalComponents command headers body) (uninitialised : ℕ) :
    ∃ frame, ofComponents uninitialised command headers body = some (.kOk,frame) ∧
      ∀ n uninitialised', ∃ parsed,
        ofString uninitialised' (frame.plain ++ List.replicate n newLine) = some (.kOk,parsed) ∧
          Holds parsed command headers body :=
  ⟨_,h.ofComponents_eq,fun n _ => ⟨_,h.ofString_eq n,holds_frameOf _⟩⟩

/-- A message whose body starts with a newline and contains a NULL octet. -/
theorem ofComponents_roundTrip_binary : ∃ frame,
    ofComponents 7 .kSend ⟨[(.kDestination,ascii "/a:b"),(.kContentLength,ascii "03")],by decide⟩
        (ascii "\n\x00x") = some (.kOk,frame) ∧
      ∀ n uninitialised', ∃ parsed,
        ofString uninitialised' (frame.plain ++ List.replicate n newLine) = some (.kOk,parsed) ∧
          Holds parsed .kSend
            ⟨[(.kDestination,ascii "/a:b"),(.kContentLength,ascii "03")],by decide⟩
            (ascii "\n\x00x") := by
  refine ofComponents_roundTrip ⟨by decide,?_,by decide +kernel,Or.inr (by decide +kernel),?_,
    by decide +kernel⟩ 7
  · intro h hmem
    simp only [List.mem_cons,List.not_mem_nil,or_false] at hmem
    rcases hmem with rfl | rfl
    · exact ⟨by decide,by decide +kernel,by decide +kernel⟩
    · exact ⟨by decide,by decide +kernel,by decide +kernel⟩
  · intro value hvalue
    obtain rfl : ascii "03" = value := Option.some.inj hvalue
    exact ⟨by decide +kernel,by decide +kernel,by decide +kernel⟩

end QuietRoute
