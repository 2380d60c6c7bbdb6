import QuietRoute.Stomp.StompFrame
import Mathlib.Tactic

/-! The grammar of frame texts, independent of how they are parsed: a command line, header lines,
a blank line, a body, its NULL octet, and newlines. -/
namespace QuietRoute

open StompFrame StringView

/-- A known header with a value that is not empty and does not leave its line. -/
structure ValidHeader (h : StompHeader × Bytes) : Prop where
  known : h.1 ≠ .kInvalid
  value_ne_nil : h.2 ≠ []
  value_line : newLine ∉ h.2

/-- The lines of a frame up to its blank line. -/
def frameHead (command : StompCommand) (hs : List (StompHeader × Bytes)) : Bytes :=
  command.toString ++ newLine::hs.flatMap headerLine

/-- The text of a frame of known parts, with any number of newlines after it. -/
structure HasParts (text : Bytes) (command : StompCommand) (hs : List (StompHeader × Bytes))
    (body : Bytes) : Prop where
  command_known : command ≠ .kInvalid
  headers_valid : ∀ h ∈ hs, ValidHeader h
  text_eq : ∃ n, text = frameHead command hs ++ newLine::(body ++ null::List.replicate n newLine)

def HasRequired (command : StompCommand) (hs : List (StompHeader × Bytes)) : Prop :=
  ∀ header ∈ requiredHeaders command, ∃ h ∈ hs, h.1 = header

def firstValue (hs : List (StompHeader × Bytes)) (header : StompHeader) : Option Bytes :=
  (hs.find? fun h => h.1 = header).map Prod.snd

/-- The lines between the command line and the first empty line. -/
def headerSection (text : Bytes) : List Bytes :=
  (text.splitOn newLine).tail.takeWhile (· ≠ [])

/-- The value of the first line of the header section that is about a header. -/
def firstHeader (text : Bytes) (header : StompHeader) : Option Bytes :=
  (headerSection text).findSome? fun line => line.dropPrefix? (header.toString ++ [colon])

/-! The names in the tables. -/

/-- The names of commands and headers, with those of the invalid ones. -/
def commandNames : List (StompCommand × Bytes) :=
  (.kInvalid,ascii "StompCommand::kInvalid")::gStompCommandStrings

def headerNames : List (StompHeader × Bytes) :=
  (.kInvalid,ascii "StompHeader::kInvalid")::gStompHeaderStrings

theorem commandNames_spec : ∀ e ∈ commandNames,
    e.1.toString = e.2 ∧ toCommand e.2 = e.1 ∧ newLine ∉ e.2 := by decide +kernel

theorem headerNames_spec : ∀ e ∈ headerNames, e.1.toString = e.2 ∧ toHeader e.2 = e.1 ∧
    newLine ∉ e.2 ∧ e.2 ≠ [] ∧ (e.1 ≠ .kInvalid → colon ∉ e.2) := by decide +kernel

theorem command_spec (command : StompCommand) :
    toCommand command.toString = command ∧ newLine ∉ command.toString := by
  have hmem : command ∈ commandNames.map Prod.fst := by cases command <;> decide
  obtain ⟨e,he,rfl⟩ := List.mem_map.mp hmem
  obtain ⟨hname,hspec⟩ := commandNames_spec e he
  rwa [hname]

theorem header_spec (header : StompHeader) : toHeader header.toString = header ∧
    newLine ∉ header.toString ∧ header.toString ≠ [] ∧
      (header ≠ .kInvalid → colon ∉ header.toString) := by
  have hmem : header ∈ headerNames.map Prod.fst := by cases header <;> decide
  obtain ⟨e,he,rfl⟩ := List.mem_map.mp hmem
  obtain ⟨hname,hspec⟩ := headerNames_spec e he
  rwa [hname]

@[simp] theorem toCommand_toString (command : StompCommand) : toCommand command.toString = command :=
  (command_spec command).1

@[simp] theorem toHeader_toString (header : StompHeader) : toHeader header.toString = header :=
  (header_spec header).1

theorem newLine_not_mem_command (command : StompCommand) : newLine ∉ command.toString :=
  (command_spec command).2

theorem newLine_not_mem_header (header : StompHeader) : newLine ∉ header.toString :=
  (header_spec header).2.1

theorem toString_ne_nil (header : StompHeader) : header.toString ≠ [] := (header_spec header).2.2.1

theorem colon_not_mem_header {header : StompHeader} (h : header ≠ .kInvalid) :
    colon ∉ header.toString := (header_spec header).2.2.2 h

theorem toString_toCommand {name : Bytes} (h : toCommand name ≠ .kInvalid) :
    (toCommand name).toString = name := by
  unfold toCommand at h ⊢
  cases hfind : gStompCommandStrings.find? fun e => e.2 = name with
  | none => simp [hfind] at h
  | some e =>
    have hname : e.2 = name := by simpa using List.find?_some hfind
    have hmem := List.mem_of_find?_eq_some hfind
    rw [Option.map_some,Option.getD_some,← hname]
    exact (commandNames_spec e (List.mem_cons_of_mem _ hmem)).1

theorem toString_toHeader {name : Bytes} (h : toHeader name ≠ .kInvalid) :
    (toHeader name).toString = name := by
  unfold toHeader at h ⊢
  cases hfind : gStompHeaderStrings.find? fun e => e.2 = name with
  | none => simp [hfind] at h
  | some e =>
    have hname : e.2 = name := by simpa using List.find?_some hfind
    have hmem := List.mem_of_find?_eq_some hfind
    rw [Option.map_some,Option.getD_some,← hname]
    exact (headerNames_spec e (List.mem_cons_of_mem _ hmem)).1

theorem exists_head_toString (header : StompHeader) :
    ∃ c name, header.toString = c::name ∧ c ≠ newLine := by
  obtain ⟨c,name,hname⟩ := List.exists_cons_of_ne_nil (toString_ne_nil header)
  refine ⟨c,name,hname,?_⟩
  intro hc
  exact newLine_not_mem_header header (by rw [hname,hc]; exact List.mem_cons_self)

/-! A text has one set of parts only. -/

theorem headerLine_unique {h h' : StompHeader × Bytes} {rest rest' : Bytes} (hvalid : ValidHeader h)
    (hvalid' : ValidHeader h') (heq : headerLine h ++ rest = headerLine h' ++ rest') :
    h = h' ∧ rest = rest' := by
  have hcut : h.1.toString ++ colon::(h.2 ++ newLine::rest) =
      h'.1.toString ++ colon::(h'.2 ++ newLine::rest') := by simpa [headerLine] using heq
  obtain ⟨hname,hvalue⟩ := cut_unique hcut (colon_not_mem_header hvalid.known)
    (colon_not_mem_header hvalid'.known)
  obtain ⟨hvalue,hrest⟩ := cut_unique hvalue hvalid.value_line hvalid'.value_line
  have hheader : h.1 = h'.1 := by
    rw [← toHeader_toString h.1,hname,toHeader_toString h'.1]
  exact ⟨Prod.ext hheader hvalue,hrest⟩

theorem headerLine_ne_blank (h : StompHeader × Bytes) (rest rest' : Bytes) :
    headerLine h ++ rest ≠ newLine::rest' := by
  obtain ⟨c,name,hname,hc⟩ := exists_head_toString h.1
  rw [headerLine,hname]
  exact fun heq => hc (List.cons.inj heq).1

theorem headerLines_unique {hs hs' : List (StompHeader × Bytes)} {rest rest' : Bytes}
    (hvalid : ∀ h ∈ hs, ValidHeader h) (hvalid' : ∀ h ∈ hs', ValidHeader h)
    (heq : hs.flatMap headerLine ++ newLine::rest = hs'.flatMap headerLine ++ newLine::rest') :
    hs = hs' ∧ rest = rest' := by
  induction hs generalizing hs' with
  | nil =>
    cases hs' with
    | nil => exact ⟨rfl,(List.cons.inj heq).2⟩
    | cons h' hs' =>
      rw [List.flatMap_cons,List.append_assoc] at heq
      exact absurd heq.symm (headerLine_ne_blank h' _ _)
  | cons h hs ih =>
    cases hs' with
    | nil =>
      rw [List.flatMap_cons,List.append_assoc] at heq
      exact absurd heq (headerLine_ne_blank h _ _)
    | cons h' hs' =>
      simp only [List.flatMap_cons,List.append_assoc] at heq
      obtain ⟨hhead,htail⟩ := headerLine_unique (hvalid h List.mem_cons_self)
        (hvalid' h' List.mem_cons_self) heq
      obtain ⟨hlines,hrest⟩ := ih (fun e he => hvalid e (List.mem_cons_of_mem h he))
        (fun e he => hvalid' e (List.mem_cons_of_mem h' he)) htail
      exact ⟨by rw [hhead,hlines],hrest⟩

theorem body_unique {body body' : Bytes} {n n' : ℕ}
    (heq : body ++ null::List.replicate n newLine = body' ++ null::List.replicate n' newLine) :
    body = body' := by
  have hfree : ∀ m, null ∉ List.replicate m newLine := by
    intro m hmem
    exact absurd (List.eq_of_mem_replicate hmem) (by decide)
  have hreverse := congrArg List.reverse heq
  simp only [List.reverse_append,List.reverse_cons,List.reverse_replicate,List.append_assoc,
    List.singleton_append] at hreverse
  exact List.reverse_injective (cut_unique hreverse (hfree n) (hfree n')).2

theorem HasParts.unique {text : Bytes} {command command' : StompCommand}
    {hs hs' : List (StompHeader × Bytes)} {body body' : Bytes} (h : HasParts text command hs body)
    (h' : HasParts text command' hs' body') : command = command' ∧ hs = hs' ∧ body = body' := by
  obtain ⟨n,htext⟩ := h.text_eq
  obtain ⟨n',htext'⟩ := h'.text_eq
  have hcut := htext.symm.trans htext'
  simp only [frameHead,List.append_assoc,List.cons_append] at hcut
  obtain ⟨hname,hlines⟩ := cut_unique hcut (newLine_not_mem_command command)
    (newLine_not_mem_command command')
  obtain ⟨hhs,hbody⟩ := headerLines_unique h.headers_valid h'.headers_valid hlines
  refine ⟨?_,hhs,body_unique hbody⟩
  rw [← toCommand_toString command,hname,toCommand_toString]

/-! The headers of a text, line by line. -/

def lineText (h : StompHeader × Bytes) : Bytes := h.1.toString ++ colon::h.2

theorem newLine_not_mem_lineText {h : StompHeader × Bytes} (hvalue : newLine ∉ h.2) :
    newLine ∉ lineText h := by
  have hcolon : newLine ≠ colon := by decide
  simp [lineText,newLine_not_mem_header h.1,hvalue,hcolon]

theorem headerSection_lines {hs : List (StompHeader × Bytes)} {rest : Bytes}
    (hvalid : ∀ h ∈ hs, ValidHeader h) :
    ((hs.flatMap headerLine ++ newLine::rest).splitOn newLine).takeWhile (· ≠ []) =
      hs.map lineText := by
  induction hs with
  | nil =>
    have hblank := List.splitOn_append_cons_self_of_not_mem (List.not_mem_nil (a := newLine)) rest
    rw [List.nil_append] at hblank
    simp [hblank]
  | cons h hs ih =>
    have hline : (h::hs).flatMap headerLine ++ newLine::rest =
        lineText h ++ newLine::(hs.flatMap headerLine ++ newLine::rest) := by
      simp [headerLine,lineText]
    have hne : lineText h ≠ [] := by simp [lineText]
    rw [hline,List.splitOn_append_cons_self_of_not_mem
      (newLine_not_mem_lineText (hvalid h List.mem_cons_self).value_line)]
    rw [List.takeWhile_cons_of_pos (by simpa using hne),List.map_cons,
      ih fun e he => hvalid e (List.mem_cons_of_mem h he)]

theorem HasParts.headerSection_eq {text : Bytes} {command : StompCommand}
    {hs : List (StompHeader × Bytes)} {body : Bytes} (h : HasParts text command hs body) :
    headerSection text = hs.map lineText := by
  obtain ⟨n,htext⟩ := h.text_eq
  have hcut : text = command.toString ++ newLine::(hs.flatMap headerLine ++
      newLine::(body ++ null::List.replicate n newLine)) := by simp [htext,frameHead]
  rw [headerSection,hcut,List.splitOn_append_cons_self_of_not_mem
    (newLine_not_mem_command command),List.tail_cons]
  exact headerSection_lines h.headers_valid

theorem dropPrefix_lineText {h : StompHeader × Bytes} {header : StompHeader}
    (hvalid : ValidHeader h) (hheader : header ≠ .kInvalid) :
    (lineText h).dropPrefix? (header.toString ++ [colon]) =
      if h.1 = header then some h.2 else none := by
  split_ifs with heq
  · rw [List.dropPrefix?_eq_some_iff]
    exact ⟨header.toString ++ [colon],by simp [lineText,heq],by simp⟩
  · rw [Option.eq_none_iff_forall_ne_some]
    intro value hsome
    obtain ⟨p,hline,hp⟩ := List.dropPrefix?_eq_some_iff.mp hsome
    rw [eq_of_beq hp,lineText,List.append_assoc,List.singleton_append] at hline
    obtain ⟨hname,-⟩ := cut_unique hline (colon_not_mem_header hvalid.known)
      (colon_not_mem_header hheader)
    apply heq
    rw [← toHeader_toString h.1,hname,toHeader_toString]

theorem firstHeader_eq {text : Bytes} {command : StompCommand} {hs : List (StompHeader × Bytes)}
    {body : Bytes} {header : StompHeader} (h : HasParts text command hs body)
    (hheader : header ≠ .kInvalid) : firstHeader text header = firstValue hs header := by
  rw [firstHeader,h.headerSection_eq,firstValue]
  have hvalid := h.headers_valid
  clear h
  induction hs with
  | nil => rfl
  | cons e hs ih =>
    rw [List.map_cons,List.findSome?_cons,dropPrefix_lineText (hvalid e List.mem_cons_self) hheader,
      List.find?_cons]
    by_cases heq : e.1 = header
    · simp [heq]
    · simp only [heq,if_false,decide_false]
      exact ih fun e' he => hvalid e' (List.mem_cons_of_mem e he)

theorem exists_headerLines (text : Bytes) :
    ∃ (hs : List (StompHeader × Bytes)) (rest : Bytes), text = hs.flatMap headerLine ++ rest ∧
      (∀ h ∈ hs, ValidHeader h) ∧ ∀ h rest', ValidHeader h → rest ≠ headerLine h ++ rest' := by
  induction hlen : text.length using Nat.strong_induction_on generalizing text with
  | _ n ih =>
    by_cases hline : ∃ h rest, ValidHeader h ∧ text = headerLine h ++ rest
    · obtain ⟨h,rest,hvalid,rfl⟩ := hline
      have hshort : rest.length < n := by
        rw [← hlen]
        simp only [headerLine,List.length_append,List.length_singleton]
        omega
      obtain ⟨hs,rest',rfl,hhs,hend⟩ := ih _ hshort rest rfl
      refine ⟨h::hs,rest',by simp,?_,hend⟩
      intro e he
      cases he with
      | head => exact hvalid
      | tail _ hmem => exact hhs e hmem
    · exact ⟨[],text,rfl,by simp,fun h rest hvalid heq => hline ⟨h,rest,hvalid,heq⟩⟩

end QuietRoute
