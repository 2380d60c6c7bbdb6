import QuietRoute.Stomp.FrameGrammar

/-! What `ParseFrame` does on every text. The positions of the code are those at which the text
falls into the parts of the grammar. -/
namespace QuietRoute

open StringView StompFrame

variable {plain : Bytes} {start : ℕ} {headers : Headers} {h : StompHeader × Bytes}
  {hs : List (StompHeader × Bytes)} {name after value rest : Bytes}

/-! No early end has the code `kOk`. -/

def EndsWell {α : Type} (parse : Except Failure α) : Prop := parse ≠ .error (.error .kOk)

theorem EndsWell.bind {α β : Type} {parse : Except Failure α} {next : α → Except Failure β}
    (hparse : EndsWell parse) (hnext : ∀ a, EndsWell (next a)) : EndsWell (parse >>= next) := by
  cases parse with
  | error failure =>
    intro hend
    rw [error_bind] at hend
    exact hparse (by rw [Except.error.inj hend])
  | ok a => exact hnext a

theorem endsWell_ok {α : Type} (a : α) : EndsWell (.ok a) := by simp [EndsWell]

theorem endsWell_check {ok : Bool} {ec : StompError} (h : ec ≠ .kOk) : EndsWell (check ok ec) := by
  cases ok <;> simp [EndsWell,h]

theorem endsWell_orError {α : Type} {ec : StompError} {found : Option α} (h : ec ≠ .kOk) :
    EndsWell (orError ec found) := by
  cases found <;> simp [EndsWell,h]

theorem endsWell_orThrow {α : Type} (access : Option α) : EndsWell (orThrow access) := by
  cases access <;> simp [EndsWell]

theorem endsWell_parseHeaderLine (plain : Bytes) (start : ℕ) :
    EndsWell (parseHeaderLine plain start) := by
  apply EndsWell.bind (endsWell_orError (by decide))
  intro headerEnd
  apply EndsWell.bind (endsWell_orThrow _)
  intro name
  apply EndsWell.bind (endsWell_check (by decide))
  intro _
  apply EndsWell.bind (endsWell_orThrow _)
  intro c
  apply EndsWell.bind (endsWell_check (by decide))
  intro _
  apply EndsWell.bind (endsWell_orError (by decide))
  intro valueEnd
  apply EndsWell.bind (endsWell_orThrow _)
  intro value
  exact endsWell_ok _

theorem endsWell_parseHeaders (plain : Bytes) (fuel start : ℕ) (headers : Headers) :
    EndsWell (parseHeaders plain fuel start headers) := by
  induction fuel generalizing start headers with
  | zero => exact endsWell_ok _
  | succ fuel ih =>
    rw [parseHeaders]
    split_ifs
    · apply EndsWell.bind (endsWell_orThrow _)
      intro c
      split_ifs
      · exact endsWell_ok _
      · exact EndsWell.bind (endsWell_parseHeaderLine plain start) fun line => ih _ _
    · exact endsWell_ok _

theorem endsWell_findBodyEnd (plain : Bytes) (headers : Headers) (start : ℕ) :
    EndsWell (findBodyEnd plain headers start) := by
  cases hfind : headers.find .kContentLength with
  | none =>
    simp only [findBodyEnd,hfind]
    exact endsWell_orError (by decide)
  | some contentLength =>
    simp only [findBodyEnd,hfind]
    apply EndsWell.bind (endsWell_check (by decide))
    intro _
    apply EndsWell.bind (endsWell_check (by decide))
    intro _
    apply EndsWell.bind (endsWell_check (by decide))
    intro _
    apply EndsWell.bind (endsWell_orThrow _)
    intro c
    apply EndsWell.bind (endsWell_check (by decide))
    intro _
    exact endsWell_ok _

theorem endsWell_parseFrame (plain : Bytes) : EndsWell (parseFrame plain) := by
  apply EndsWell.bind (endsWell_orError (by decide))
  intro commandEnd
  apply EndsWell.bind (endsWell_orThrow _)
  intro name
  apply EndsWell.bind (endsWell_check (by decide))
  intro _
  apply EndsWell.bind (endsWell_parseHeaders plain _ _ _)
  intro headers
  refine EndsWell.bind ?_ fun body => endsWell_ok _
  apply EndsWell.bind (endsWell_check (by decide))
  intro _
  apply EndsWell.bind (endsWell_orThrow _)
  intro c
  apply EndsWell.bind (endsWell_check (by decide))
  intro _
  apply EndsWell.bind (endsWell_findBodyEnd plain _ _)
  intro bodyEnd
  apply EndsWell.bind (endsWell_check (by decide))
  intro _
  exact endsWell_orThrow _

/-! One header line. -/

theorem parseHeaderLine_no_colon (hcolon : colon ∉ plain.drop start) :
    parseHeaderLine plain start = .error (.error .kParsingMissingColonInHeader) := by
  rw [parseHeaderLine,find_eq_none hcolon]
  rfl

theorem parseHeaderLine_name (hdrop : plain.drop start = name ++ colon::after)
    (hcolon : colon ∉ name) :
    find plain colon start = some (start+name.length) ∧
      substr plain start (start+name.length-start) = some name ∧
      plain.drop (start+name.length+1) = after := by
  have hle : start ≤ plain.length := le_length_of_drop (by simp [hdrop])
  refine ⟨find_eq_some hdrop hcolon,?_,?_⟩
  · rw [Nat.add_sub_cancel_left]
    exact substr_eq hle hdrop
  · have hlong : plain.drop start = (name ++ [colon]) ++ after := by simp [hdrop]
    have hafter := drop_add_length hlong
    simpa [Nat.add_assoc] using hafter

theorem parseHeaderLine_unknown (hdrop : plain.drop start = name ++ colon::after)
    (hcolon : colon ∉ name) (hname : toHeader name = .kInvalid) :
    parseHeaderLine plain start = .error (.error .kParsingUnrecognizedHeader) := by
  obtain ⟨hfind,hsub,-⟩ := parseHeaderLine_name hdrop hcolon
  simp only [parseHeaderLine,hfind,orError_some,ok_bind,hsub,orThrow_some]
  rw [check_neg _ (not_not.mpr hname),error_bind]

theorem parseHeaderLine_end (hdrop : plain.drop start = name ++ [colon]) (hcolon : colon ∉ name)
    (hname : toHeader name ≠ .kInvalid) :
    parseHeaderLine plain start = .error .outOfRange := by
  obtain ⟨hfind,hsub,hafter⟩ := parseHeaderLine_name hdrop hcolon
  simp only [parseHeaderLine,hfind,orError_some,ok_bind,hsub,orThrow_some]
  rw [check_pos _ hname,ok_bind,charAt_end hafter,orThrow_none,error_bind]

theorem parseHeaderLine_empty (hdrop : plain.drop start = name ++ colon::newLine::rest)
    (hcolon : colon ∉ name) (hname : toHeader name ≠ .kInvalid) :
    parseHeaderLine plain start = .error (.error .kParsingEmptyHeaderValue) := by
  obtain ⟨hfind,hsub,hafter⟩ := parseHeaderLine_name hdrop hcolon
  simp only [parseHeaderLine,hfind,orError_some,ok_bind,hsub,orThrow_some]
  rw [check_pos _ hname,ok_bind,charAt_eq hafter,orThrow_some,ok_bind,check_neg _ (not_not.mpr rfl),
    error_bind]

theorem parseHeaderLine_no_eol {c : UInt8} (hdrop : plain.drop start = name ++ colon::c::rest)
    (hcolon : colon ∉ name) (hname : toHeader name ≠ .kInvalid) (hline : newLine ∉ c::rest) :
    parseHeaderLine plain start = .error (.error .kParsingMissingEolAfterHeaderValue) := by
  obtain ⟨hfind,hsub,hafter⟩ := parseHeaderLine_name hdrop hcolon
  have hc : c ≠ newLine := fun heq => hline (heq ▸ List.mem_cons_self)
  have hnone : find plain newLine (start+name.length+1) = none := find_eq_none (hafter ▸ hline)
  simp only [parseHeaderLine,hfind,orError_some,ok_bind,hsub,orThrow_some]
  rw [check_pos _ hname,ok_bind,charAt_eq hafter,orThrow_some,ok_bind,check_pos _ hc,ok_bind,hnone,
    orError_none,error_bind]

theorem parseHeaderLine_ok (hvalid : ValidHeader h) (hdrop : plain.drop start = headerLine h ++ rest) :
    parseHeaderLine plain start = .ok (h.1,h.2,start+(headerLine h).length) := by
  have hcut : plain.drop start = h.1.toString ++ colon::(h.2 ++ newLine::rest) := by
    simp [hdrop,headerLine]
  obtain ⟨hfind,hsub,hafter⟩ := parseHeaderLine_name hcut (colon_not_mem_header hvalid.known)
  have hname : toHeader h.1.toString = h.1 := toHeader_toString h.1
  obtain ⟨c,tail,hvalue⟩ := List.exists_cons_of_ne_nil hvalid.value_ne_nil
  have hc : c ≠ newLine := fun heq => hvalid.value_line (by rw [hvalue,heq]; exact List.mem_cons_self)
  have hchar : charAt plain (start+h.1.toString.length+1) = some c :=
    charAt_eq (by rw [hafter,hvalue]; rfl)
  have heol := find_eq_some hafter hvalid.value_line
  have hle : start+h.1.toString.length+1 ≤ plain.length := le_length_of_drop (by simp [hafter])
  have hval := substr_eq hle hafter
  simp only [parseHeaderLine,hfind,orError_some,ok_bind,hsub,orThrow_some,hname]
  rw [check_pos _ hvalid.known,ok_bind,hchar,orThrow_some,ok_bind,check_pos _ hc,ok_bind,heol,
    orError_some,ok_bind,Nat.add_sub_cancel_left,hval,orThrow_some,ok_bind]
  have hnext : start+h.1.toString.length+1+h.2.length+1 = start+(headerLine h).length := by
    simp only [headerLine,List.length_append,List.length_singleton]
    omega
  rw [hnext]
  rfl

/-- Without a valid header line the next header fails, by an exception only after its colon. -/
theorem parseHeaderLine_error
    (hline : ∀ h rest', ValidHeader h → plain.drop start ≠ headerLine h ++ rest') :
    ∃ failure, parseHeaderLine plain start = .error failure ∧ (failure = .outOfRange ↔
      ∃ header : StompHeader, header ≠ .kInvalid ∧ plain.drop start = header.toString ++ [colon]) := by
  by_cases hcolon : colon ∈ plain.drop start
  · obtain ⟨name,after,hdrop,hname⟩ := List.eq_append_cons_of_mem hcolon
    have hcut : ∀ header : StompHeader, header ≠ .kInvalid →
        plain.drop start = header.toString ++ [colon] → header.toString = name ∧ after = [] := by
      intro header hheader hend
      obtain ⟨heq,hnil⟩ := cut_unique (hdrop.symm.trans hend) hname (colon_not_mem_header hheader)
      exact ⟨heq.symm,hnil⟩
    by_cases hknown : toHeader name = .kInvalid
    · refine ⟨_,parseHeaderLine_unknown hdrop hname hknown,by simp,?_⟩
      rintro ⟨header,hheader,hend⟩
      rw [← (hcut header hheader hend).1,toHeader_toString] at hknown
      exact absurd hknown hheader
    · cases after with
      | nil =>
        refine ⟨_,parseHeaderLine_end hdrop hname hknown,fun _ => ?_,fun _ => rfl⟩
        exact ⟨toHeader name,hknown,by rw [toString_toHeader hknown,hdrop]⟩
      | cons c rest =>
        have hother : ¬∃ header : StompHeader, header ≠ .kInvalid ∧
            plain.drop start = header.toString ++ [colon] := by
          rintro ⟨header,hheader,hend⟩
          simpa using (hcut header hheader hend).2
        by_cases hc : c = newLine
        · rw [hc] at hdrop
          exact ⟨_,parseHeaderLine_empty hdrop hname hknown,by simp,fun h => absurd h hother⟩
        · by_cases hnl : newLine ∈ c::rest
          · obtain ⟨value,rest',hvalue,hfree⟩ := List.eq_append_cons_of_mem hnl
            have hne : value ≠ [] := by
              rintro rfl
              exact hc (List.cons.inj hvalue).1
            have hheader : ValidHeader (toHeader name,value) := ⟨hknown,hne,hfree⟩
            refine absurd ?_ (hline _ rest' hheader)
            rw [hdrop,hvalue,headerLine,toString_toHeader hknown]
            simp
          · exact ⟨_,parseHeaderLine_no_eol hdrop hname hknown hnl,by simp,fun h => absurd h hother⟩
  · refine ⟨_,parseHeaderLine_no_colon hcolon,by simp,?_⟩
    rintro ⟨header,-,hend⟩
    exact absurd (by simp [hend]) hcolon

/-! The loop over the header lines. -/

def addHeaders (headers : Headers) (hs : List (StompHeader × Bytes)) : Headers :=
  hs.foldl (fun headers h => headers.emplace h.1 h.2) headers

theorem parseHeaders_lines (hvalid : ∀ h ∈ hs, ValidHeader h)
    (hdrop : plain.drop start = hs.flatMap headerLine ++ rest) (fuel : ℕ) :
    parseHeaders plain (hs.length+fuel) start headers =
      parseHeaders plain fuel (start+(hs.flatMap headerLine).length) (addHeaders headers hs) := by
  induction hs generalizing start headers with
  | nil => simp [addHeaders]
  | cons h hs ih =>
    have hline : plain.drop start = headerLine h ++ (hs.flatMap headerLine ++ rest) := by
      rw [hdrop,List.flatMap_cons,List.append_assoc]
    have hh := hvalid h List.mem_cons_self
    obtain ⟨c,name,hname,hc⟩ := exists_head_toString h.1
    have hchar : charAt plain start = some c :=
      charAt_eq (by rw [hline,headerLine,hname]; rfl)
    have hlt : start < plain.length := (List.getElem?_eq_some_iff.mp hchar).1
    have hrest := @ih (start+(headerLine h).length) (headers.emplace h.1 h.2)
      (fun e he => hvalid e (List.mem_cons_of_mem h he)) (drop_add_length hline)
    have hfuel : (h::hs).length+fuel = (hs.length+fuel)+1 := by
      rw [List.length_cons]
      omega
    rw [hfuel,parseHeaders,if_pos hlt,hchar,orThrow_some,ok_bind,if_neg hc,
      parseHeaderLine_ok hh hline,ok_bind]
    simp only [hrest,List.flatMap_cons,List.length_append,Nat.add_assoc]
    rfl

theorem parseHeaders_stop (hstop : plain.drop start = [] ∨ ∃ tail, plain.drop start = newLine::tail)
    (fuel : ℕ) : parseHeaders plain fuel start headers = .ok (headers,start) := by
  cases fuel with
  | zero => rfl
  | succ fuel =>
    rw [parseHeaders]
    cases hstop with
    | inl hend =>
      rw [if_neg (Nat.not_lt.mpr (List.drop_eq_nil_iff.mp hend))]
      rfl
    | inr hblank =>
      obtain ⟨tail,hblank⟩ := hblank
      have hchar : charAt plain start = some newLine := charAt_eq hblank
      have hlt : start < plain.length := (List.getElem?_eq_some_iff.mp hchar).1
      rw [if_pos hlt,hchar,orThrow_some,ok_bind,if_pos rfl]
      rfl

theorem parseHeaders_fail {c : UInt8} {failure : Failure} (hdrop : plain.drop start = c::rest)
    (hc : c ≠ newLine) (hline : parseHeaderLine plain start = .error failure) (fuel : ℕ) :
    parseHeaders plain (fuel+1) start headers = .error failure := by
  have hchar : charAt plain start = some c := charAt_eq hdrop
  have hlt : start < plain.length := (List.getElem?_eq_some_iff.mp hchar).1
  rw [parseHeaders,if_pos hlt,hchar,orThrow_some,ok_bind,if_neg hc,hline,error_bind]

theorem length_le_flatMap (hs : List (StompHeader × Bytes)) :
    hs.length ≤ (hs.flatMap headerLine).length := by
  induction hs with
  | nil => simp
  | cons h hs ih =>
    rw [List.flatMap_cons,List.length_append,List.length_cons,headerLine,List.length_append,
      List.length_singleton]
    omega

/-! The body. -/

/-- How the headers bound a body: by its length, or by the first NULL octet. -/
def Delimits (headers : Headers) (body : Bytes) : Prop :=
  match headers.find .kContentLength with
  | some contentLength => stoI contentLength 0 = (true,body.length)
  | none => null ∉ body

theorem Delimits.unique {body body' rest rest' : Bytes} (hb : Delimits headers body)
    (hb' : Delimits headers body') (heq : body ++ null::rest = body' ++ null::rest') :
    body = body' ∧ rest = rest' := by
  unfold Delimits at hb hb'
  cases hfind : headers.find .kContentLength with
  | none =>
    rw [hfind] at hb hb'
    exact cut_unique heq hb hb'
  | some contentLength =>
    rw [hfind] at hb hb'
    have hlen : body.length = body'.length := by
      have hpair := hb.symm.trans hb'
      exact congrArg Prod.snd hpair
    obtain ⟨hbody,hrest⟩ := List.append_inj heq hlen
    exact ⟨hbody,(List.cons.inj hrest).2⟩

theorem charAt_add_length {n : ℕ} (hlt : n < plain.length-start) :
    ∃ body c rest, plain.drop start = body ++ c::rest ∧ body.length = n ∧
      charAt plain (start+n) = some c := by
  have hlength : n < (plain.drop start).length := by
    rw [List.length_drop]
    exact hlt
  refine ⟨(plain.drop start).take n,(plain.drop start)[n],(plain.drop start).drop (n+1),?_,?_,?_⟩
  · rw [← List.drop_eq_getElem_cons,List.take_append_drop]
  · rw [List.length_take]
    omega
  · rw [charAt,List.getElem_drop,List.getElem?_eq_getElem]

theorem findBodyEnd_length {contentLength : Bytes} {n : ℕ}
    (hfind : headers.find .kContentLength = some contentLength)
    (hlength : stoI contentLength 0 = (true,n)) :
    (∃ ec, findBodyEnd plain headers start = .error (.error ec) ∧
      ∀ body rest, plain.drop start = body ++ null::rest → n ≠ body.length) ∨
    ∃ body rest, plain.drop start = body ++ null::rest ∧ n = body.length ∧
      findBodyEnd plain headers start = .ok (start+body.length) := by
  simp only [findBodyEnd,hfind,hlength,check_true,ok_bind]
  by_cases hlt : n < plain.length-start
  · obtain ⟨body,c,rest,hdrop,hbody,hchar⟩ := charAt_add_length hlt
    rw [check_pos _ (by omega),ok_bind,check_pos _ (by omega),ok_bind,hchar,orThrow_some,ok_bind]
    by_cases hnull : c = null
    · right
      rw [hnull] at hdrop
      exact ⟨body,rest,hdrop,hbody.symm,by rw [check_pos _ hnull,ok_bind,hbody]; rfl⟩
    · left
      refine ⟨_,by rw [check_neg _ hnull,error_bind],?_⟩
      intro body' rest' hdrop' hn
      obtain ⟨-,htail⟩ := List.append_inj (hdrop.symm.trans hdrop') (hbody.trans hn)
      exact hnull (List.cons.inj htail).1
  · left
    have hno : ∀ body rest, plain.drop start = body ++ null::rest → n ≠ body.length := by
      intro body rest hdrop hn
      have htotal := congrArg List.length hdrop
      rw [List.length_drop,List.length_append,List.length_cons] at htotal
      omega
    by_cases heq : n = plain.length-start
    · exact ⟨_,by rw [check_neg _ (not_not.mpr heq),error_bind],hno⟩
    · exact ⟨_,by rw [check_pos _ heq,ok_bind,check_neg _ (by omega),error_bind],hno⟩

theorem findBodyEnd_cases (plain : Bytes) (headers : Headers) (start : ℕ) :
    (∃ ec, findBodyEnd plain headers start = .error (.error ec) ∧
      ∀ body rest, plain.drop start = body ++ null::rest → ¬Delimits headers body) ∨
    ∃ body rest, plain.drop start = body ++ null::rest ∧ Delimits headers body ∧
      findBodyEnd plain headers start = .ok (start+body.length) := by
  unfold Delimits
  cases hfind : headers.find .kContentLength with
  | none =>
    simp only [findBodyEnd,hfind]
    by_cases hnull : null ∈ plain.drop start
    · obtain ⟨body,rest,hdrop,hbody⟩ := List.eq_append_cons_of_mem hnull
      exact Or.inr ⟨body,rest,hdrop,hbody,by rw [find_eq_some hdrop hbody,orError_some]⟩
    · left
      refine ⟨_,by rw [find_eq_none hnull,orError_none],?_⟩
      intro body rest hdrop
      exact absurd (by simp [hdrop]) hnull
  | some contentLength =>
    cases hlength : stoI contentLength 0 with
    | mk ok n =>
      cases ok with
      | false =>
        left
        refine ⟨.kParsingInvalidContentLength,?_,?_⟩
        · simp only [findBodyEnd,hfind,hlength,check_false,error_bind]
        · intro body rest _ hpair
          have hpair' : stoI contentLength 0 = (true,body.length) := hpair
          rw [hlength] at hpair'
          exact absurd (congrArg Prod.fst hpair') (by simp)
      | true =>
        have hcases := @findBodyEnd_length plain start headers contentLength n hfind hlength
        simpa only [hlength,Prod.mk.injEq,true_and] using hcases

theorem all_newLine_iff {rest : Bytes} :
    rest.all (· = newLine) ↔ ∃ n, rest = List.replicate n newLine := by
  constructor
  · intro hall
    refine ⟨rest.length,List.eq_replicate_iff.mpr ⟨rfl,?_⟩⟩
    simpa using hall
  · rintro ⟨n,rfl⟩
    simp

theorem parseBody_end (hend : plain.drop start = []) : parseBody plain headers start =
    .error (.error .kParsingMissingBlankLineAfterHeaders) := by
  have hle : ¬start < plain.length := Nat.not_lt.mpr (List.drop_eq_nil_iff.mp hend)
  rw [parseBody,check_neg _ hle,error_bind]

theorem parseBody_blank (hblank : plain.drop start = newLine::rest) :
    parseBody plain headers start = (do
      let bodyEnd ← findBodyEnd plain headers (start+1)
      check ((plain.drop (bodyEnd+1)).all (· = newLine)) .kParsingJunkAfterBody
      orThrow (substr plain (start+1) (bodyEnd-(start+1)))) := by
  have hchar : charAt plain start = some newLine := charAt_eq hblank
  have hlt : start < plain.length := (List.getElem?_eq_some_iff.mp hchar).1
  rw [parseBody,check_pos _ hlt,ok_bind,hchar,orThrow_some,ok_bind,check_pos _ rfl,ok_bind]

theorem parseBody_cases (hblank : plain.drop start = newLine::rest) (headers : Headers) :
    (∃ ec, parseBody plain headers start = .error (.error ec) ∧
      ∀ body n, rest = body ++ null::List.replicate n newLine → ¬Delimits headers body) ∨
    ∃ body n, rest = body ++ null::List.replicate n newLine ∧ Delimits headers body ∧
      parseBody plain headers start = .ok body := by
  have hrest : plain.drop (start+1) = rest := @drop_add_length _ plain [newLine] rest start hblank
  rw [parseBody_blank hblank]
  cases findBodyEnd_cases plain headers (start+1) with
  | inl herror =>
    obtain ⟨ec,hec,hno⟩ := herror
    exact Or.inl ⟨ec,by rw [hec,error_bind],fun body n heq => hno body _ (hrest.trans heq)⟩
  | inr hok =>
    obtain ⟨body,after,hdrop,hbody,hend⟩ := hok
    have hle : start+1 ≤ plain.length := le_length_of_drop (by simp [hdrop])
    have hafter : plain.drop (start+1+body.length+1) = after := by
      have hlong : plain.drop (start+1) = (body ++ [null]) ++ after := by simp [hdrop]
      simpa [Nat.add_assoc] using drop_add_length hlong
    rw [hend,ok_bind,hafter,Nat.add_sub_cancel_left]
    by_cases hall : after.all (· = newLine)
    · right
      obtain ⟨n,hn⟩ := all_newLine_iff.mp hall
      refine ⟨body,n,by rw [← hrest,hdrop,hn],hbody,?_⟩
      rw [hall,check_true,ok_bind,substr_eq hle hdrop,orThrow_some]
    · left
      rw [Bool.not_eq_true] at hall
      refine ⟨.kParsingJunkAfterBody,by rw [hall,check_false,error_bind],?_⟩
      intro body' n heq hbody'
      obtain ⟨-,htail⟩ := hbody.unique hbody' (hdrop.symm.trans (hrest.trans heq))
      rw [all_newLine_iff.mpr ⟨n,htail⟩] at hall
      cases hall

/-! The whole text. -/

theorem parseFrame_no_eol (hline : newLine ∉ plain) :
    parseFrame plain = .error (.error .kParsingMissingEolAfterCommand) := by
  rw [parseFrame,find_eq_none (by simpa using hline)]
  rfl

theorem parseFrame_command (hplain : plain = name ++ newLine::after) (hname : newLine ∉ name) :
    find plain newLine 0 = some name.length ∧ substr plain 0 name.length = some name := by
  have hdrop : plain.drop 0 = name ++ newLine::after := hplain
  refine ⟨?_,substr_eq (Nat.zero_le _) hdrop⟩
  simpa using find_eq_some hdrop hname

theorem parseFrame_unknown (hplain : plain = name ++ newLine::after) (hname : newLine ∉ name)
    (hunknown : toCommand name = .kInvalid) :
    parseFrame plain = .error (.error .kParsingUnrecognizedCommand) := by
  obtain ⟨hfind,hsub⟩ := parseFrame_command hplain hname
  simp only [parseFrame,hfind,orError_some,ok_bind,hsub,orThrow_some]
  rw [check_neg _ (not_not.mpr hunknown),error_bind]

variable {command : StompCommand} {body : Bytes}

/-- The loop gets to the end of the head with at least one iteration left. -/
theorem parseFrame_head (hcommand : command ≠ .kInvalid) (hhs : ∀ h ∈ hs, ValidHeader h)
    (hplain : plain = frameHead command hs ++ rest) : ∃ fuel, parseFrame plain = (do
      let (headers,newLineBeforeBody) ←
        parseHeaders plain (fuel+1) (frameHead command hs).length (addHeaders .empty hs)
      let body ← parseBody plain headers newLineBeforeBody
      return (command,headers,body)) := by
  have hcut : plain = command.toString ++ newLine::(hs.flatMap headerLine ++ rest) := by
    simp [hplain,frameHead]
  obtain ⟨hfind,hsub⟩ := parseFrame_command hcut (newLine_not_mem_command command)
  have hdrop : plain.drop (command.toString.length+1) = hs.flatMap headerLine ++ rest := by
    have hlong : plain.drop 0 = (command.toString ++ [newLine]) ++
        (hs.flatMap headerLine ++ rest) := by simp [hcut]
    simpa using drop_add_length hlong
  have hlength : (frameHead command hs).length =
      command.toString.length+1+(hs.flatMap headerLine).length := by
    simp only [frameHead,List.length_append,List.length_cons]
    omega
  have hfuel : ∃ fuel, plain.length = hs.length+(fuel+1) := by
    have hle := length_le_flatMap hs
    have htotal := congrArg List.length hplain
    rw [List.length_append,hlength] at htotal
    exact ⟨plain.length-hs.length-1,by omega⟩
  obtain ⟨fuel,hfuel⟩ := hfuel
  refine ⟨fuel,?_⟩
  simp only [parseFrame,hfind,orError_some,ok_bind,hsub,orThrow_some,toCommand_toString]
  rw [check_pos _ hcommand,ok_bind,hfuel,parseHeaders_lines hhs hdrop,hlength]

theorem parseFrame_end (hcommand : command ≠ .kInvalid) (hhs : ∀ h ∈ hs, ValidHeader h)
    (hplain : plain = frameHead command hs) :
    parseFrame plain = .error (.error .kParsingMissingBlankLineAfterHeaders) := by
  have hend : plain.drop (frameHead command hs).length = [] := by rw [hplain,List.drop_length]
  obtain ⟨fuel,hframe⟩ := parseFrame_head hcommand hhs (hplain.trans (List.append_nil _).symm)
  rw [hframe,parseHeaders_stop (Or.inl hend),ok_bind]
  simp only [parseBody_end hend,error_bind]

theorem parseFrame_blank (hcommand : command ≠ .kInvalid) (hhs : ∀ h ∈ hs, ValidHeader h)
    (hplain : plain = frameHead command hs ++ newLine::rest) :
    (∃ ec, parseFrame plain = .error (.error ec) ∧ ∀ body n,
      rest = body ++ null::List.replicate n newLine → ¬Delimits (addHeaders .empty hs) body) ∨
    ∃ body n, rest = body ++ null::List.replicate n newLine ∧
      Delimits (addHeaders .empty hs) body ∧
      parseFrame plain = .ok (command,addHeaders .empty hs,body) := by
  have hblank : plain.drop (frameHead command hs).length = newLine::rest := by
    rw [hplain,List.drop_left]
  obtain ⟨fuel,hframe⟩ := parseFrame_head hcommand hhs hplain
  rw [hframe,parseHeaders_stop (Or.inr ⟨rest,hblank⟩),ok_bind]
  cases parseBody_cases hblank (addHeaders .empty hs) with
  | inl herror =>
    obtain ⟨ec,hec,hno⟩ := herror
    exact Or.inl ⟨ec,by simp only [hec,error_bind],hno⟩
  | inr hok =>
    obtain ⟨body,n,heq,hbody,hparse⟩ := hok
    exact Or.inr ⟨body,n,heq,hbody,by simp only [hparse,ok_bind]; rfl⟩

theorem parseFrame_header {c : UInt8} {failure : Failure} (hcommand : command ≠ .kInvalid)
    (hhs : ∀ h ∈ hs, ValidHeader h) (hplain : plain = frameHead command hs ++ c::rest)
    (hc : c ≠ newLine)
    (hline : parseHeaderLine plain (frameHead command hs).length = .error failure) :
    parseFrame plain = .error failure := by
  have hdrop : plain.drop (frameHead command hs).length = c::rest := by
    rw [hplain,List.drop_left]
  obtain ⟨fuel,hframe⟩ := parseFrame_head hcommand hhs hplain
  rw [hframe,parseHeaders_fail hdrop hc hline,error_bind]

/-- A head followed by a header line that stops right after its colon. -/
def EndsAfterColon (text : Bytes) : Prop :=
  ∃ (command : StompCommand) (hs : List (StompHeader × Bytes)) (header : StompHeader),
    command ≠ .kInvalid ∧ (∀ h ∈ hs, ValidHeader h) ∧ header ≠ .kInvalid ∧
      text = frameHead command hs ++ (header.toString ++ [colon])

/-- Every text is a frame, or stops after a colon, or has an error code. -/
theorem parseFrame_cases (plain : Bytes) :
    (∃ command hs body, HasParts plain command hs body ∧
      Delimits (addHeaders .empty hs) body ∧
      parseFrame plain = .ok (command,addHeaders .empty hs,body)) ∨
    (EndsAfterColon plain ∧ parseFrame plain = .error .outOfRange) ∨
    ∃ ec, parseFrame plain = .error (.error ec) := by
  by_cases hline : newLine ∈ plain
  · obtain ⟨name,after,hplain,hname⟩ := List.eq_append_cons_of_mem hline
    by_cases hcommand : toCommand name = .kInvalid
    · exact Or.inr (Or.inr ⟨_,parseFrame_unknown hplain hname hcommand⟩)
    · obtain ⟨hs,rest,rfl,hhs,hend⟩ := exists_headerLines after
      have hhead : plain = frameHead (toCommand name) hs ++ rest := by
        rw [hplain,frameHead,toString_toCommand hcommand]
        simp
      cases rest with
      | nil =>
        rw [List.append_nil] at hhead
        exact Or.inr (Or.inr ⟨_,parseFrame_end hcommand hhs hhead⟩)
      | cons c rest =>
        by_cases hc : c = newLine
        · rw [hc] at hhead
          cases parseFrame_blank hcommand hhs hhead with
          | inl herror =>
            obtain ⟨ec,hec,-⟩ := herror
            exact Or.inr (Or.inr ⟨ec,hec⟩)
          | inr hok =>
            obtain ⟨body,n,hrest,hbody,hparse⟩ := hok
            exact Or.inl ⟨_,hs,body,⟨hcommand,hhs,n,by rw [hhead,hrest]⟩,hbody,hparse⟩
        · have hdrop : plain.drop (frameHead (toCommand name) hs).length = c::rest := by
            rw [hhead,List.drop_left]
          rw [← hdrop] at hend
          obtain ⟨failure,hfail,hthrow⟩ := parseHeaderLine_error hend
          have hparse := parseFrame_header hcommand hhs hhead hc hfail
          cases failure with
          | error ec => exact Or.inr (Or.inr ⟨ec,hparse⟩)
          | outOfRange =>
            obtain ⟨header,hheader,hrest⟩ := hthrow.mp rfl
            rw [hdrop] at hrest
            exact Or.inr (Or.inl ⟨⟨_,hs,header,hcommand,hhs,hheader,by rw [hhead,hrest]⟩,hparse⟩)
  · exact Or.inr (Or.inr ⟨_,parseFrame_no_eol hline⟩)

theorem parseFrame_parts (hparts : HasParts plain command hs body)
    (hbody : Delimits (addHeaders .empty hs) body) :
    parseFrame plain = .ok (command,addHeaders .empty hs,body) := by
  obtain ⟨n,hplain⟩ := hparts.text_eq
  cases parseFrame_blank hparts.command_known hparts.headers_valid hplain with
  | inl herror =>
    obtain ⟨ec,-,hno⟩ := herror
    exact absurd hbody (hno body n rfl)
  | inr hok =>
    obtain ⟨body',n',heq,hbody',hparse⟩ := hok
    rw [hparse,(hbody.unique hbody' heq).1]

/-- The parser accepts the frames whose body ends where their headers put it, and no others. -/
theorem parseFrame_ok_iff : parseFrame plain = .ok (command,headers,body) ↔
    ∃ hs, HasParts plain command hs body ∧ Delimits headers body ∧
      headers = addHeaders .empty hs := by
  constructor
  · intro hok
    have hcases := parseFrame_cases plain
    rw [hok] at hcases
    simp only [Except.ok.injEq,Prod.mk.injEq,reduceCtorEq,and_false,exists_false,or_false] at hcases
    obtain ⟨command',hs,body',hparts,hbody,rfl,rfl,rfl⟩ := hcases
    exact ⟨hs,hparts,hbody,rfl⟩
  · rintro ⟨hs,hparts,hbody,rfl⟩
    exact parseFrame_parts hparts hbody

theorem parseFrame_throws_iff : parseFrame plain = .error .outOfRange ↔ EndsAfterColon plain := by
  constructor
  · intro hthrow
    have hcases := parseFrame_cases plain
    rw [hthrow] at hcases
    simpa using hcases
  · rintro ⟨command,hs,header,hcommand,hhs,hheader,hplain⟩
    obtain ⟨c,name,hname,hc⟩ := exists_head_toString header
    have hdrop : plain.drop (frameHead command hs).length = header.toString ++ [colon] := by
      rw [hplain,List.drop_left]
    have hknown : toHeader header.toString ≠ .kInvalid := by rwa [toHeader_toString]
    have hline := parseHeaderLine_end hdrop (colon_not_mem_header hheader) hknown
    rw [hname] at hplain
    exact parseFrame_header hcommand hhs hplain hc hline

end QuietRoute
