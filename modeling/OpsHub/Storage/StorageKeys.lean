import OpsHub.Lib.Durations
import OpsHub.Lib.Urls
import OpsHub.Storage.StorageService

/-!
# Keys of files

`presignUpload` makes the key of a file from its type, its uploader, a new id and the extension of
its name, as the client has spelt it; `resolveUrl` puts the key behind the address of the CDN.

* `FilesConfig`: the address of the CDN is an origin, and `toLowerCase` leaves alone what is no
  letter;
* `Presigned`: a call of `presignUpload` that has succeeded;
* `Confined`, `Distinct`, `Addressable`: the key stays in the directory of the uploader, no other
  call gets it, and the path of its URL is decoded to it;
* `segments_key`: the key as a path, `distinct`: keys are distinct whatever the names are;
* `keyFits_iff`: a key is all three exactly if the extension is a `PlainExtension`;
* `not_keyFits`: extensions that leave the directory, or the path.
-/

namespace OpsHub

namespace StorageService

open Urls

/-- A character of ASCII that is no letter. -/
def isCaseless (c : Char) : Bool := decide (c.toNat < 128) && !c.isAlpha

/-- A configuration with a CDN. -/
structure FilesConfig extends StorageConfig where
  origin : Origin
  cdn : cdnBaseUrl = some (String.ofList origin.text)
  mem_toLowerCase : ∀ s c, isCaseless c = true →
    (c ∈ (toLowerCase s).toList ↔ c ∈ s.toList)
  getLast_toLowerCase : ∀ s c, isCaseless c = true →
    (c ∈ (toLowerCase s).toList.getLast? ↔ c ∈ s.toList.getLast?)

/-- A call of `presignUpload` that has succeeded. -/
structure Presigned (config : FilesConfig) where
  input : PresignUploadInput
  uploaderId : Uuid
  keyId : Uuid
  newId : Uuid
  now : Time
  files : Table StoredFile.id
  answer : Table StoredFile.id × PresignUploadResult
  succeeded : presignUpload config.toStorageConfig input uploaderId keyId newId now files =
    .ok answer

/-- The part of a file name behind its last dot. -/
def lastPart (fileName : String) : List Char :=
  (fileName.toList.reverse.takeWhile (fun c => decide (c ≠ '.'))).reverse

/-- If there is a dot in the name, no character behind the last one has a meaning in a URL, and the
name does not end with a blank. -/
structure PlainExtension (fileName : String) : Prop where
  chars : '.' ∈ fileName.toList → ∀ c ∈ lastPart fileName,
    endsPath c = false ∧ isTabOrNewline c = false ∧ c ≠ '\\' ∧ c ≠ '%'
  last : '.' ∈ fileName.toList → ∀ c ∈ (lastPart fileName).getLast?, isBlank c = false

/-- The characters of types and ids have no meaning in a URL. -/
structure IsNameChar (c : Char) : Prop where
  separator : isSeparator c = false
  ends : endsPath c = false
  tab : isTabOrNewline c = false
  blank : isBlank c = false
  dot : c ≠ '.'
  backslash : c ≠ '\\'
  percent : c ≠ '%'

theorem isNameChar {c : Char} (h : c.isAlpha = true ∨ c.isDigit = true ∨ c = '-') :
    IsNameChar c := by
  have hne : ∀ d ∈ ['/', '\\', '?', '#', '.', '%'], c ≠ d := by
    rintro d hd rfl
    have hall : ['/', '\\', '?', '#', '.', '%'].all (fun d =>
        decide ¬ (d.isAlpha = true ∨ d.isDigit = true ∨ d = '-')) = true := by decide
    exact of_decide_eq_true (List.all_eq_true.1 hall c hd) h
  have hblank : isBlank c = false := by
    refine decide_eq_false fun hle => ?_
    rcases h with halpha | hdigit | rfl
    · have := isAlpha_iff.1 halpha
      omega
    · have := isDigit_iff.1 hdigit
      omega
    · exact absurd hle (by decide)
  refine ⟨decide_eq_false ?_, decide_eq_false ?_, isTabOrNewline_eq_false hblank, hblank,
    hne _ (by simp), hne _ (by simp), hne _ (by simp)⟩
  · exact fun h => h.elim (hne _ (by simp)) (hne _ (by simp))
  · exact fun h => h.elim (hne _ (by simp)) (hne _ (by simp))

theorem toList_toString (id : Uuid) : (toString id).toList = Nat.toDigits 10 id :=
  String.toList_ofList

theorem isDigit_of_mem_toString {id : Uuid} {c : Char} (h : c ∈ (toString id).toList) :
    c.isDigit = true := by
  rw [toList_toString] at h
  exact Nat.isDigit_of_mem_toDigits (by decide) (by decide) h

/-- Ids are read back from their texts. -/
theorem eq_of_toList_toString {id id' : Uuid}
    (h : (toString id).toList = (toString id').toList) : id = id' := by
  rw [toList_toString, toList_toString] at h
  calc id = Nat.ofDigitChars 10 (Nat.toDigits 10 id) 0 := Nat.ofDigitChars_ten_toDigits.symm
    _ = Nat.ofDigitChars 10 (Nat.toDigits 10 id') 0 := by rw [h]
    _ = id' := Nat.ofDigitChars_ten_toDigits

theorem toList_extension (config : StorageConfig) (fileName : String) :
    (extension config fileName).toList = if '.' ∈ fileName.toList then
      '.' :: (config.toLowerCase (String.ofList (lastPart fileName))).toList else [] := by
  unfold extension lastPart
  by_cases hdot : '.' ∈ fileName.toList
  · rw [if_pos hdot, if_pos hdot, String.toList_append]
    rfl
  · rw [if_neg hdot, if_neg hdot]
    rfl

/-- The extension as a path: it begins with its dot, and goes on with what is behind. -/
theorem segments_extension {config : StorageConfig} {fileName : String} {first : List Char}
    {rest : List (List Char)} (h : segments (extension config fileName).toList = first :: rest) :
    (∀ c ∈ first.head?, c = '.') ∧ ∀ s ∈ rest, ∀ c ∈ s, '.' ∈ fileName.toList ∧
      c ∈ (config.toLowerCase (String.ofList (lastPart fileName))).toList := by
  rw [toList_extension] at h
  by_cases hdot : '.' ∈ fileName.toList
  · obtain ⟨t, segs, hsegs⟩ := exists_segments_eq_cons
      (config.toLowerCase (String.ofList (lastPart fileName))).toList
    rw [if_pos hdot, segments_cons (by decide) hsegs] at h
    obtain ⟨rfl, rfl⟩ := List.cons.inj h
    refine ⟨fun c hc => (Option.some.inj hc).symm, fun s hs c hc => ⟨hdot, ?_⟩⟩
    exact mem_of_mem_segments (by rw [hsegs]; exact List.mem_cons_of_mem t hs) hc
  · rw [if_neg hdot, segments, List.splitOnP_nil] at h
    obtain ⟨rfl, rfl⟩ := List.cons.inj h
    simp

/-- Letters, and characters outside ASCII, have no meaning in a URL. -/
theorem of_isCaseless_eq_false {c : Char} (h : isCaseless c = false) :
    (endsPath c = false ∧ isTabOrNewline c = false ∧ c ≠ '\\' ∧ c ≠ '%') ∧ isBlank c = false := by
  have hne : ∀ d ∈ ['\\', '?', '#', '%'], c ≠ d := by
    rintro d hd rfl
    have hall : ['\\', '?', '#', '%'].all isCaseless = true := by decide
    rw [List.all_eq_true.1 hall c hd] at h
    cases h
  have hblank : isBlank c = false := by
    refine decide_eq_false fun hle => ?_
    have halpha : c.isAlpha = false := Bool.eq_false_iff.2 fun halpha => by
      have := isAlpha_iff.1 halpha
      omega
    rw [isCaseless, halpha, decide_eq_true (show c.toNat < 128 by omega)] at h
    cases h
  refine ⟨⟨decide_eq_false ?_, isTabOrNewline_eq_false hblank, hne _ (by simp), hne _ (by simp)⟩,
    hblank⟩
  exact fun h => h.elim (hne _ (by simp)) (hne _ (by simp))

namespace Presigned

variable {config : FilesConfig} (p : Presigned config)

/-- The key that is returned. -/
def key : String := p.answer.2.key

/-- The key is in the directory of the uploader, also when dot segments are removed. -/
def Confined : Prop :=
  ∃ name rest, normalise [] (segments p.key.toList) =
    p.input.resourceType.toList :: (toString p.uploaderId).toList :: name :: rest

/-- Calls that have drawn other ids return other keys. -/
def Distinct : Prop := ∀ q : Presigned config, q.keyId ≠ p.keyId → q.key ≠ p.key

/-- The path of the URL is decoded to the key. -/
def Addressable : Prop :=
  ((urlPath (resolveUrl config.toStorageConfig p.key).toList).bind fun segs =>
    percentDecode (join segs)) = some (Utf8.bytes p.key.toList)

/-- What a key is for. -/
structure KeyFits : Prop where
  confined : p.Confined
  distinct : p.Distinct
  addressable : p.Addressable

/-! ### The key -/

theorem key_eq : p.key = p.input.resourceType ++ "/" ++ toString p.uploaderId ++ "/" ++
    toString p.keyId ++ extension config.toStorageConfig p.input.fileName := by
  obtain ⟨-, -, hkey⟩ := presignUpload_ok p.succeeded
  rw [key, hkey, newFile]

theorem exists_rules : ∃ rules, (p.input.resourceType, rules) ∈ resourceRules := by
  have h := (presignUpload_ok p.succeeded).1
  simp only [checkUpload, Except.bind_eq_ok_iff, Outcome.orThrow_eq_ok_iff] at h
  obtain ⟨rules, hrules, -⟩ := h
  obtain ⟨before, after, heq, -⟩ := List.lookup_eq_some_iff.1 hrules
  exact ⟨rules, by rw [heq]; exact List.mem_append_right before List.mem_cons_self⟩

/-- The characters of a type of resources. -/
theorem resourceType_chars : ∀ c ∈ p.input.resourceType.toList,
    c.isAlpha = true ∨ c = '-' := by
  obtain ⟨rules, hmem⟩ := p.exists_rules
  have hall : ∀ entry ∈ resourceRules,
      entry.1.toList.all (fun c => decide (c.isAlpha = true ∨ c = '-')) = true := by
    decide +kernel
  exact fun c hc => of_decide_eq_true (List.all_eq_true.1 (hall _ hmem) c hc)

/-- The first part of the key. -/
def stem : List Char :=
  p.input.resourceType.toList ++ '/' :: ((toString p.uploaderId).toList ++ '/' ::
    (toString p.keyId).toList)

theorem toList_key : p.key.toList =
    p.stem ++ (extension config.toStorageConfig p.input.fileName).toList := by
  rw [key_eq]
  simp [stem]

theorem stem_chars : ∀ c ∈ p.stem, IsNameChar c ∨ c = '/' := by
  intro c hc
  have hid : ∀ id : Uuid, c ∈ (toString id).toList → IsNameChar c := fun id hmem =>
    isNameChar (.inr (.inl (isDigit_of_mem_toString hmem)))
  rw [stem, List.mem_append, List.mem_cons, List.mem_append, List.mem_cons] at hc
  rcases hc with htype | rfl | huploader | rfl | hkey
  · exact .inl (isNameChar ((p.resourceType_chars c htype).imp_right .inr))
  · exact .inr rfl
  · exact .inl (hid _ huploader)
  · exact .inr rfl
  · exact .inl (hid _ hkey)

/-- **The key as a path**. -/
theorem segments_key : ∃ first rest,
    segments (extension config.toStorageConfig p.input.fileName).toList = first :: rest ∧
      segments p.key.toList = p.input.resourceType.toList :: (toString p.uploaderId).toList ::
        ((toString p.keyId).toList ++ first) :: rest := by
  have hid : ∀ id : Uuid, ∀ c ∈ (toString id).toList, isSeparator c = false := fun id c hc =>
    (isNameChar (.inr (.inl (isDigit_of_mem_toString hc)))).separator
  have htype : ∀ c ∈ p.input.resourceType.toList, isSeparator c = false := fun c hc =>
    (isNameChar ((p.resourceType_chars c hc).imp_right .inr)).separator
  obtain ⟨first, rest, hsegments⟩ := exists_segments_eq_cons
    (extension config.toStorageConfig p.input.fileName).toList
  refine ⟨first, rest, hsegments, ?_⟩
  rw [toList_key, stem, List.append_assoc, List.cons_append, List.append_assoc, List.cons_append,
    segments_append_cons htype rfl, segments_append_cons (hid _) rfl, segments_append (hid _),
    hsegments]
  rfl

/-- **Keys are distinct**, whatever the names of the files are. -/
theorem distinct : p.Distinct := by
  intro q hne heq
  obtain ⟨first, rest, hfirst, hp⟩ := p.segments_key
  obtain ⟨first', rest', hfirst', hq⟩ := q.segments_key
  rw [heq, hp] at hq
  simp only [List.cons.injEq] at hq
  obtain ⟨-, -, hname, -⟩ := hq
  have hhead : ∀ {name : String} {f : List Char} {r : List (List Char)},
      segments (extension config.toStorageConfig name).toList = f :: r →
        ∀ c ∈ f.head?, c.isDigit = false := by
    intro name f r hsegments c hc
    obtain rfl := (segments_extension hsegments).1 c hc
    rfl
  have hdigits := (takeWhile_dropWhile_append
    (fun c (hc : c ∈ (toString p.keyId).toList) => isDigit_of_mem_toString hc) (hhead hfirst)).1
  have hdigits' := (takeWhile_dropWhile_append
    (fun c (hc : c ∈ (toString q.keyId).toList) => isDigit_of_mem_toString hc) (hhead hfirst')).1
  rw [hname, hdigits'] at hdigits
  exact hne (eq_of_toList_toString hdigits)

/-! ### The URL -/

theorem dot_not_mem_lastPart (fileName : String) : '.' ∉ lastPart fileName := by
  intro hmem
  have hne := List.mem_takeWhile_imp (List.mem_reverse.1 hmem)
  simp at hne

theorem getLast?_key : p.key.toList.getLast? = if '.' ∈ p.input.fileName.toList then
    some ((config.toLowerCase (String.ofList (lastPart p.input.fileName))).toList.getLast?.getD '.')
    else p.stem.getLast? := by
  rw [toList_key, toList_extension, List.getLast?_append]
  by_cases hdot : '.' ∈ p.input.fileName.toList
  · rw [if_pos hdot, if_pos hdot, List.getLast?_cons]
    rfl
  · rw [if_neg hdot, if_neg hdot]
    rfl

/-- A plain extension in small letters has no special character either. -/
theorem lowered_chars (h : PlainExtension p.input.fileName) (hdot : '.' ∈ p.input.fileName.toList) :
    ∀ c ∈ (config.toLowerCase (String.ofList (lastPart p.input.fileName))).toList,
      (endsPath c = false ∧ isTabOrNewline c = false ∧ c ≠ '\\' ∧ c ≠ '%') ∧ c ≠ '.' := by
  intro c hc
  by_cases hcaseless : isCaseless c = true
  · rw [config.mem_toLowerCase _ c hcaseless, String.toList_ofList] at hc
    refine ⟨h.chars hdot c hc, ?_⟩
    rintro rfl
    exact dot_not_mem_lastPart _ hc
  · rw [Bool.not_eq_true] at hcaseless
    refine ⟨(of_isCaseless_eq_false hcaseless).1, ?_⟩
    rintro rfl
    cases hcaseless

theorem key_chars (h : PlainExtension p.input.fileName) : ∀ c ∈ p.key.toList,
    endsPath c = false ∧ isTabOrNewline c = false ∧ c ≠ '\\' ∧ c ≠ '%' := by
  intro c hc
  rw [toList_key, toList_extension, List.mem_append] at hc
  rcases hc with hstem | hext
  · rcases p.stem_chars c hstem with hname | rfl
    · exact ⟨hname.ends, hname.tab, hname.backslash, hname.percent⟩
    · decide
  · by_cases hdot : '.' ∈ p.input.fileName.toList
    · rw [if_pos hdot] at hext
      rcases List.mem_cons.1 hext with rfl | hc
      · decide
      · exact (p.lowered_chars h hdot c hc).1
    · rw [if_neg hdot] at hext
      cases hext

theorem key_last (h : PlainExtension p.input.fileName) :
    ∀ c ∈ p.key.toList.getLast?, isBlank c = false := by
  intro c hc
  rw [getLast?_key] at hc
  by_cases hdot : '.' ∈ p.input.fileName.toList
  · rw [if_pos hdot] at hc
    cases hend : (config.toLowerCase (String.ofList (lastPart p.input.fileName))).toList.getLast?
      with
    | none =>
      rw [hend] at hc
      obtain rfl := Option.some.inj hc
      rfl
    | some d =>
      rw [hend] at hc
      obtain rfl := Option.some.inj hc
      by_cases hcaseless : isCaseless d = true
      · refine h.last hdot d ?_
        rw [← String.toList_ofList (l := lastPart p.input.fileName),
          ← config.getLast_toLowerCase _ d hcaseless]
        exact hend
      · exact (of_isCaseless_eq_false (Bool.not_eq_true _ ▸ hcaseless)).2
  · rw [if_neg hdot] at hc
    rcases p.stem_chars c (List.mem_of_getLast? hc) with hname | rfl
    · exact hname.blank
    · rfl

/-- The segments of the key begin with letters and digits, or are behind the dot. -/
theorem key_segments (h : PlainExtension p.input.fileName) :
    ∀ s ∈ segments p.key.toList, isPlainSegment s = true := by
  obtain ⟨first, rest, hfirst, hkey⟩ := p.segments_key
  obtain ⟨-, hrest⟩ := segments_extension hfirst
  rw [hkey]
  intro s hs
  refine isPlainSegment_of_head fun c hc => ?_
  have hname : ∀ t : List Char, (∀ d ∈ t, IsNameChar d) → c ∈ t.head? → c ≠ '.' ∧ c ≠ '%' :=
    fun t ht hmem => ⟨(ht c (List.mem_of_mem_head? hmem)).dot,
      (ht c (List.mem_of_mem_head? hmem)).percent⟩
  have hid : ∀ id : Uuid, ∀ d ∈ (toString id).toList, IsNameChar d := fun id d hd =>
    isNameChar (.inr (.inl (isDigit_of_mem_toString hd)))
  rcases List.mem_cons.1 hs with rfl | hs
  · exact hname _ (fun d hd => isNameChar ((p.resourceType_chars d hd).imp_right .inr)) hc
  rcases List.mem_cons.1 hs with rfl | hs
  · exact hname _ (hid _) hc
  rcases List.mem_cons.1 hs with rfl | hs
  · rw [List.head?_append_of_ne_nil _ (by rw [toList_toString]; exact Nat.toDigits_ne_nil)] at hc
    exact hname _ (hid _) hc
  · obtain ⟨hdot, hmem⟩ := hrest s hs c (List.mem_of_mem_head? hc)
    have hlow := p.lowered_chars h hdot c hmem
    exact ⟨hlow.2, hlow.1.2.2.2⟩

theorem plain_of_plainExtension (h : PlainExtension p.input.fileName) : Plain p.key.toList :=
  ⟨p.key_chars h, p.key_last h, p.key_segments h⟩

theorem plainExtension_of_plain (h : Plain p.key.toList) : PlainExtension p.input.fileName := by
  constructor
  · intro hdot c hc
    by_cases hcaseless : isCaseless c = true
    · refine h.chars c ?_
      rw [toList_key, toList_extension, if_pos hdot]
      refine List.mem_append_right _ (List.mem_cons_of_mem _ ?_)
      rwa [config.mem_toLowerCase _ c hcaseless, String.toList_ofList]
    · exact (of_isCaseless_eq_false (Bool.not_eq_true _ ▸ hcaseless)).1
  · intro hdot c hc
    by_cases hcaseless : isCaseless c = true
    · refine h.last c ?_
      rw [← String.toList_ofList (l := lastPart p.input.fileName),
        ← config.getLast_toLowerCase _ c hcaseless] at hc
      rw [getLast?_key, if_pos hdot, Option.mem_def.1 hc]
      rfl
    · exact (of_isCaseless_eq_false (Bool.not_eq_true _ ▸ hcaseless)).2

theorem toList_resolveUrl : (resolveUrl config.toStorageConfig p.key).toList =
    config.origin.text ++ '/' :: p.key.toList := by
  rw [resolveUrl, config.cdn]
  simp

theorem addressable_iff : p.Addressable ↔ PlainExtension p.input.fileName := by
  rw [Addressable, toList_resolveUrl, decodes_iff]
  exact ⟨p.plainExtension_of_plain, p.plain_of_plainExtension⟩

theorem confined_of_plainExtension (h : PlainExtension p.input.fileName) : p.Confined := by
  obtain ⟨first, rest, -, hkey⟩ := p.segments_key
  refine ⟨(toString p.keyId).toList ++ first, rest, ?_⟩
  rw [(p.plain_of_plainExtension h).normalise_eq, hkey]

/-- **Keys of files**: whatever is asked of them holds exactly of plain extensions. -/
theorem keyFits_iff : p.KeyFits ↔ PlainExtension p.input.fileName := by
  constructor
  · intro h
    exact p.addressable_iff.1 h.addressable
  · intro h
    exact ⟨p.confined_of_plainExtension h, p.distinct, p.addressable_iff.2 h⟩

end Presigned

namespace Sample

/-- A CDN; the names of the samples have no capitals. -/
def config : FilesConfig where
  bucket := "files"
  cdnBaseUrl := some "https://cdn.example.com"
  signPut key _ _ := key
  signGet := id
  toLowerCase := id
  origin := ⟨true, "cdn.example.com".toList, by decide, by simp; decide +kernel⟩
  cdn := by decide +kernel
  mem_toLowerCase _ _ _ := Iff.rfl
  getLast_toLowerCase _ _ _ := Iff.rfl

/-- An avatar of employee 1, under some name. -/
def avatar (fileName : String) : PresignUploadInput :=
  ⟨fileName, "image/png", 1000, "employee-avatar", none, none⟩

/-- The name goes up. -/
def upwards : Presigned config where
  input := avatar "me./%2e%2e/%2e%2e/other"
  uploaderId := 1
  keyId := 50
  newId := 51
  now := 0
  files := Table.empty _
  answer := _
  succeeded := rfl

/-- The name goes on behind a `#`. -/
def numbered : Presigned config where
  input := avatar "me.png#1"
  uploaderId := 1
  keyId := 52
  newId := 53
  now := 0
  files := Table.empty _
  answer := _
  succeeded := rfl

/-- One key is not in the directory of employee 1, and the URL of the other is that of another
key. -/
theorem not_keyFits : ¬ upwards.Confined ∧ ¬ numbered.Addressable ∧
    ¬ upwards.KeyFits ∧ ¬ numbered.KeyFits := by
  have hpath : normalise [] (segments upwards.key.toList) =
      ["employee-avatar".toList, "other".toList] := by
    decide +kernel
  have hconfined : ¬ upwards.Confined := by
    rintro ⟨name, rest, heq⟩
    rw [hpath] at heq
    cases (List.cons.inj heq).2
  have haddressable : ¬ numbered.Addressable := by
    unfold Presigned.Addressable
    decide +kernel
  exact ⟨hconfined, haddressable, fun h => hconfined h.confined,
    fun h => haddressable h.addressable⟩

end Sample

end StorageService

end OpsHub
