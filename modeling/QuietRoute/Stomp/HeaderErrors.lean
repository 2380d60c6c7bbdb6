import QuietRoute.Stomp.FrameParsing

/-! The diagnosis of a header line that is not well formed. The code looks for the colon of a line in
the whole rest of the text. -/
namespace QuietRoute

open StringView StompFrame

/-- The first header line of a text that is no header or has no end, and the rest of the text from
the end of the line on. -/
structure FirstBadLine (text line after : Bytes) : Prop where
  text_eq : ∃ (command : StompCommand) (hs : List (StompHeader × Bytes)), command ≠ .kInvalid ∧
    (∀ h ∈ hs, ValidHeader h) ∧ text = frameHead command hs ++ (line ++ after)
  line_ne_nil : line ≠ []
  line_line : newLine ∉ line
  ends : after = [] ∨ ∃ rest, after = newLine::rest
  bad : after ≠ [] → ∀ h, ValidHeader h → line ≠ lineText h

/-- What is wrong with a line, by its own bytes and by whether it has an end. -/
def diagnosis (line : Bytes) (ended : Bool) : StompError :=
  if colon ∉ line then .kParsingMissingColonInHeader
  else if toHeader (line.takeWhile (· ≠ colon)) = .kInvalid then .kParsingUnrecognizedHeader
  else if line.dropWhile (· ≠ colon) = [colon] ∧ ended then .kParsingEmptyHeaderValue
  else .kParsingMissingEolAfterHeaderValue

/-- The parse error is the diagnosis of the first bad line, whatever follows that line. -/
def DiagnosedByLine (text : Bytes) : Prop :=
  ∀ line after, FirstBadLine text line after →
    parseFrame text = .error (.error (diagnosis line (after ≠ [])))

/-- The first bad line has a colon or is followed by none, and the text does not stop right after the
colon of a known header. -/
def BadLineSettles (text : Bytes) : Prop :=
  ∀ line after, FirstBadLine text line after → (colon ∈ line ∨ colon ∉ after) ∧
    ¬(after = [] ∧ ∃ header : StompHeader, header ≠ .kInvalid ∧ line = header.toString ++ [colon])

variable {text line after name value : Bytes}

theorem diagnosis_no_colon (h : colon ∉ line) (ended : Bool) :
    diagnosis line ended = .kParsingMissingColonInHeader := if_pos h

theorem diagnosis_colon (hcolon : colon ∉ name) (ended : Bool) :
    diagnosis (name ++ colon::value) ended =
      if toHeader name = .kInvalid then .kParsingUnrecognizedHeader
      else if value = [] ∧ ended then .kParsingEmptyHeaderValue
      else .kParsingMissingEolAfterHeaderValue := by
  have hne : ∀ c ∈ name, decide (c ≠ colon) = true := by
    intro c hc
    have hc' : c ≠ colon := fun heq => hcolon (heq ▸ hc)
    simpa using hc'
  have hname : (name ++ colon::value).takeWhile (· ≠ colon) = name := by
    rw [List.takeWhile_append_of_pos hne,List.takeWhile_cons_of_neg (by simp),List.append_nil]
  have hvalue : (name ++ colon::value).dropWhile (· ≠ colon) = colon::value := by
    rw [List.dropWhile_append_of_pos hne,List.dropWhile_cons_of_neg (by simp)]
  rw [diagnosis,if_neg (by simp),hname,hvalue]
  simp only [List.cons.injEq,true_and]

theorem FirstBadLine.exists_start (h : FirstBadLine text line after) : ∃ start,
    text.drop start = line ++ after ∧ ∀ failure, parseHeaderLine text start = .error failure →
      parseFrame text = .error failure := by
  obtain ⟨command,hs,hcommand,hhs,htext⟩ := h.text_eq
  obtain ⟨c,rest,hline⟩ := List.exists_cons_of_ne_nil h.line_ne_nil
  have hc : c ≠ newLine := fun heq => h.line_line (by rw [hline,heq]; exact List.mem_cons_self)
  refine ⟨(frameHead command hs).length,by rw [htext,List.drop_left],fun failure hfail => ?_⟩
  rw [hline,List.cons_append] at htext
  exact parseFrame_header hcommand hhs htext hc hfail

/-- A line without a colon: the code reads on to a colon of what follows. -/
theorem FirstBadLine.parse_no_colon (h : FirstBadLine text line after) (hcolon : colon ∉ line) :
    parseFrame text = .error (.error (if colon ∈ after then .kParsingUnrecognizedHeader
      else .kParsingMissingColonInHeader)) := by
  obtain ⟨start,hdrop,hparse⟩ := h.exists_start
  apply hparse
  split_ifs with hafter
  · rcases h.ends with hnil | ⟨rest,hrest⟩
    · simp [hnil] at hafter
    · obtain ⟨pre,post,hcut,hpre⟩ := List.eq_append_cons_of_mem hafter
      have hdrop' : text.drop start = (line ++ pre) ++ colon::post := by rw [hdrop,hcut]; simp
      refine parseHeaderLine_unknown hdrop' (by simp [hcolon,hpre]) ?_
      -- no known header has a newline in its name
      by_contra hknown
      have hnewLine : newLine ∈ line ++ pre := by
        cases pre with
        | nil =>
          rw [List.nil_append,hrest] at hcut
          exact absurd (List.cons.inj hcut).1 (by decide)
        | cons c pre =>
          rw [hrest] at hcut
          rw [(List.cons.inj hcut).1]
          simp
      rw [← toString_toHeader hknown] at hnewLine
      exact newLine_not_mem_header _ hnewLine
  · exact parseHeaderLine_no_colon (by simp [hdrop,hcolon,hafter])

/-- A line with a colon: only a text that stops after it is not diagnosed. -/
theorem FirstBadLine.parse_colon (h : FirstBadLine text line after) (hline : line = name ++ colon::value)
    (hcolon : colon ∉ name) : parseFrame text =
      if toHeader name ≠ .kInvalid ∧ value = [] ∧ after = [] then .error .outOfRange
      else .error (.error (diagnosis line (after ≠ []))) := by
  obtain ⟨start,hdrop,hparse⟩ := h.exists_start
  have hcut : text.drop start = name ++ colon::(value ++ after) := by simp [hdrop,hline]
  rw [hline,diagnosis_colon hcolon]
  by_cases hname : toHeader name = .kInvalid
  · rw [if_neg (fun hend => hend.1 hname),if_pos hname]
    exact hparse _ (parseHeaderLine_unknown hcut hcolon hname)
  · rw [if_neg hname]
    cases value with
    | nil =>
      rcases h.ends with hnil | ⟨rest,hrest⟩
      · rw [if_pos ⟨hname,rfl,hnil⟩]
        rw [hnil] at hcut
        exact hparse _ (parseHeaderLine_end hcut hcolon hname)
      · rw [if_neg (by simp [hrest]),if_pos (by simp [hrest])]
        rw [hrest] at hcut
        exact hparse _ (parseHeaderLine_empty hcut hcolon hname)
    | cons c value =>
      have hfree : newLine ∉ c::value := fun hmem => h.line_line (by simp [hline,hmem])
      -- a line with a known name and a value can only lack its end
      have hnil : after = [] := by
        by_contra hafter
        refine h.bad hafter (toHeader name,c::value) ⟨hname,by simp,hfree⟩ ?_
        rw [hline,lineText,toString_toHeader hname]
      rw [if_neg (by simp),if_neg (by simp)]
      rw [hnil,List.append_nil] at hcut
      exact hparse _ (parseHeaderLine_no_eol hcut hcolon hname hfree)

theorem FirstBadLine.diagnosed_iff (h : FirstBadLine text line after) :
    parseFrame text = .error (.error (diagnosis line (after ≠ []))) ↔
      (colon ∈ line ∨ colon ∉ after) ∧ ¬(after = [] ∧
        ∃ header : StompHeader, header ≠ .kInvalid ∧ line = header.toString ++ [colon]) := by
  by_cases hcolon : colon ∈ line
  · obtain ⟨name,value,hline,hname⟩ := List.eq_append_cons_of_mem hcolon
    have hends : (∃ header : StompHeader, header ≠ .kInvalid ∧ line = header.toString ++ [colon]) ↔
        toHeader name ≠ .kInvalid ∧ value = [] := by
      constructor
      · rintro ⟨header,hheader,heq⟩
        obtain ⟨rfl,rfl⟩ := cut_unique (hline.symm.trans heq) hname (colon_not_mem_header hheader)
        exact ⟨by rwa [toHeader_toString],rfl⟩
      · rintro ⟨hknown,rfl⟩
        exact ⟨toHeader name,hknown,by rw [hline,toString_toHeader hknown]⟩
    rw [h.parse_colon hline hname,hends]
    by_cases hend : toHeader name ≠ .kInvalid ∧ value = [] ∧ after = []
    · rw [if_pos hend]
      simp [hend]
    · rw [if_neg hend]
      have hother : ¬(after = [] ∧ toHeader name ≠ .kInvalid ∧ value = []) :=
        fun hall => hend ⟨hall.2.1,hall.2.2,hall.1⟩
      simp only [true_iff]
      exact ⟨Or.inl hcolon,hother⟩
  · rw [h.parse_no_colon hcolon,diagnosis_no_colon hcolon]
    have hother : ¬(after = [] ∧
        ∃ header : StompHeader, header ≠ .kInvalid ∧ line = header.toString ++ [colon]) := by
      rintro ⟨-,header,-,heq⟩
      exact hcolon (by simp [heq])
    by_cases hafter : colon ∈ after
    · simp [hcolon,hafter]
    · simp [hcolon,hafter,hother]

/-- The first bad line decides the error in exactly the texts in which it has a colon or none follows
it, and which do not stop right after its colon. -/
theorem diagnosedByLine_iff (text : Bytes) : DiagnosedByLine text ↔ BadLineSettles text := by
  constructor
  · exact fun h line after hbad => hbad.diagnosed_iff.mp (h line after hbad)
  · exact fun h line after hbad => hbad.diagnosed_iff.mpr (h line after hbad)

def missingColon : Bytes := ascii "CONNECT\nlogin\nhost:x\n\n\x00"

theorem firstBadLine_missingColon :
    FirstBadLine missingColon (ascii "login") (ascii "\nhost:x\n\n\x00") where
  text_eq := ⟨.kConnect,[],by decide,by simp,by decide +kernel⟩
  line_ne_nil := by decide
  line_line := by decide
  ends := Or.inr ⟨ascii "host:x\n\n\x00",by decide⟩
  bad := by
    intro _ h _ hline
    have hcolon : colon ∈ ascii "login" := by rw [hline,lineText]; simp
    exact absurd hcolon (by decide)

/-- The missing colon is reported as an unknown header. -/
theorem missingColon_misdiagnosed : ¬∀ text, DiagnosedByLine text := by
  intro hclaim
  have hbad := firstBadLine_missingColon
  rcases (hbad.diagnosed_iff.mp (hclaim _ _ _ hbad)).1 with hline | hafter
  · exact absurd hline (by decide)
  · exact hafter (by decide)

end QuietRoute
