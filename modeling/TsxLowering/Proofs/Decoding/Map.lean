import TsxLowering.Proofs.Decoding.Json
import TsxLowering.Proofs.Decoding.Mappings
import TsxLowering.Proofs.Emission.Shape

/-!
Reading a written map back.

The map is a JSON object, so the name and the text of the source are read as JSON strings, and the
entries from another one. Main statement: the map handed back beside the code has just the segments
of its entries, and tells the source that was converted.
-/

namespace TsxLowering

namespace Json

def field? (v : Json) (name : Text) : Option Json :=
  match v with
  | .object fields => fields.lookup name
  | _ => none

def text? : Json → Option Text
  | .string s => some s
  | _ => none

def texts? : Json → Option (List Text)
  | .array items => items.mapM text?
  | _ => none

end Json

/-- What a map says: the names of its sources, their texts, and its entries. -/
structure DecodedMap where
  sources : List Text
  contents : List Text
  tokens : List DecodedMap.Token
  deriving DecidableEq

namespace DecodedMap

def read? (t : Text) : Option DecodedMap := do
  let v ← Json.read? t
  let .word ['3'] ← v.field? "version".toList | none
  let sources ← (← v.field? "sources".toList).texts?
  let contents ← (← v.field? "sourcesContent".toList).texts?
  let mappings ← (← v.field? "mappings".toList).text?
  return ⟨sources, contents, ← readMappings? mappings⟩

/-! ### The JSON object -/

lemma digits_lt (n : Nat) : ∀ d ∈ Vlq.digits n, d < 64 := by
  fun_induction Vlq.digits n with
  | case1 n hn => exact List.forall_mem_singleton.mpr (by omega)
  | case2 n hn ih => exact List.forall_mem_cons.mpr ⟨by omega, ih⟩

lemma escape_digit {n : Nat} (h : n < 64) :
    JsonString.escape (Base64.digit n) = [Base64.digit n] := by
  revert n
  decide +kernel

lemma escape_of_mem_vlq {i : Int} {c : Char} (h : c ∈ Vlq.encode i) :
    JsonString.escape c = [c] := by
  obtain ⟨d, hd, rfl⟩ := List.mem_map.mp h
  exact escape_digit (digits_lt _ d hd)

lemma escape_of_mem_writeSegments {first : Bool} {prev : Segment} {segments : List Segment}
    {c : Char} (h : c ∈ EncodedMap.writeSegments first prev segments) :
    JsonString.escape c = [c] := by
  induction segments generalizing first prev with
  | nil => cases h
  | cons t segments ih =>
    rw [writeSegments_cons, List.mem_append, List.mem_append] at h
    rcases h with hseparator | htext | hrest
    · split at hseparator
      · rw [List.eq_of_mem_replicate hseparator]
        rfl
      · split at hseparator
        · cases hseparator
        · rw [List.mem_singleton.mp hseparator]
          rfl
    · simp only [segmentText, EncodedMap.difference, List.mem_append] at htext
      rcases htext with ((h | h) | h) | h <;> exact escape_of_mem_vlq h
    · exact ih hrest

lemma flatMap_escape_mappings (m : EncodedMap) :
    m.mappings.flatMap JsonString.escape = m.mappings := by
  calc m.mappings.flatMap JsonString.escape
      = m.mappings.flatMap fun c => [c] :=
        List.flatMap_congr fun c hc => escape_of_mem_writeSegments hc
    _ = m.mappings := List.flatMap_singleton' _

/-- **The written map** is a JSON object. -/
theorem read?_json (m : EncodedMap) :
    Json.read? m.json = some (.object [("version".toList, .word ['3']), ("names".toList, .array []),
      ("sources".toList, .array [.string m.sourceName]),
      ("sourcesContent".toList, .array [.string m.sourceText]),
      ("mappings".toList, .string m.mappings)]) := by
  -- the text between the strings is fixed, so the reader runs over it by computation
  have hsources : Json.run ⟨[], .value⟩ "\x7b\"version\":3,\"names\":[],\"sources\":[".toList =
      some ⟨[.array [], .object [("version".toList, .word ['3']), ("names".toList, .array [])]
        "sources".toList], .value⟩ := by
    simp only [String.reduceToList]
    rfl
  have hcontents (fields : List (Text × Json)) (name : Text) (v : Json) :
      Json.run ⟨[.array [], .object fields name], .done v⟩ "],\"sourcesContent\":[".toList =
        some ⟨[.array [], .object (fields ++ [(name, .array [v])]) "sourcesContent".toList],
          .value⟩ := by
    simp only [String.reduceToList]
    rfl
  have hmappings (fields : List (Text × Json)) (name : Text) (v : Json) :
      Json.run ⟨[.array [], .object fields name], .done v⟩ "],\"mappings\":\"".toList =
        some ⟨[.object (fields ++ [(name, .array [v])]) "mappings".toList],
          .text (.ofText [])⟩ := by
    simp only [String.reduceToList]
    rfl
  have hend (fields : List (Text × Json)) (name t : Text) :
      Json.run ⟨[.object fields name], .text (.ofText t)⟩ "\"\x7d".toList =
        some ⟨[], .done (.object (fields ++ [(name, .string t)]))⟩ := by
    simp only [String.reduceToList]
    rfl
  have hentries (stack : List Json.Frame) :
      Json.run ⟨stack, .text (.ofText [])⟩ m.mappings =
        some ⟨stack, .text (.ofText m.mappings)⟩ := by
    have hescapes := Json.run_escapes stack [] m.mappings
    rwa [flatMap_escape_mappings] at hescapes
  unfold Json.read? EncodedMap.json
  simp only [Json.run_append]
  rw [hsources, Option.bind_some, Json.run_encode, Option.bind_some, hcontents, Option.bind_some,
    Json.run_encode, Option.bind_some, hmappings, Option.bind_some, hentries, Option.bind_some,
    hend]
  rfl

/-- **A written map comes back**, if its lines never go back. -/
theorem read?_eq {m : EncodedMap}
    (hlines : m.segments.Pairwise fun s t => s.generated.line ≤ t.generated.line) :
    read? m.json = some ⟨[m.sourceName], [m.sourceText], m.segments.map .ofSegment⟩ := by
  have hfields : read? m.json = (readMappings? m.mappings).bind fun tokens =>
      some ⟨[m.sourceName], [m.sourceText], tokens⟩ := by
    unfold read?
    rw [read?_json]
    simp only [String.reduceToList]
    rfl
  rw [hfields, readMappings?_mappings hlines]
  rfl

end DecodedMap

/-! ### The map of a component -/

variable {source : Text} {options : Options} {parsed : Markup.Parsed}

/-- **The map carries its segments**: whoever reads it back finds the name and the text of the
source, and for the segments of the map, in their order, one entry each. -/
theorem convert_map_decodes (hmode : options.mapMode.returnsMap = true)
    (hparse : Markup.parse source = .ok parsed)
    (hsize : (componentCode source options parsed.document).size ≤ Offset.limit) :
    ∃ code map encoded,
      convert source options = .ok ⟨code, some ⟨map, encoded⟩⟩ ∧
      map.segments (componentCode source options parsed.document) source = .ok encoded.segments ∧
      (encoded.segments.Pairwise fun s t => s.generated.line ≤ t.generated.line) ∧
      DecodedMap.read? encoded.json = some ⟨[options.filename.getD "<stdin>".toList], [source],
        encoded.segments.map .ofSegment⟩ := by
  obtain ⟨segments, hsegments, hconvert⟩ := convert_eq hparse hsize
  obtain ⟨segments', hsegments', hrefines⟩ := SourceMap.refines_segments (pieceMap_ordered _)
    (componentMap_aligned hparse options) hsize (Markup.parse_eq_ok hparse)
  have hsame : segments' = segments := Except.ok.inj (hsegments'.symm.trans hsegments)
  -- the reader has no way to go back a line, so this is needed to read the map
  have hlines : segments.Pairwise fun s t => s.generated.line ≤ t.generated.line :=
    hsame ▸ hrefines.increasing.imp fun h => by
      have := Position.lt_iff.mp h
      omega
  simp only [delivered, hmode, if_true] at hconvert
  exact ⟨_, _, _, hconvert, hsegments, hlines, DecodedMap.read?_eq hlines⟩

/-- An attribute that moves behind a later one, a line break, and characters that a JSON string
has to escape. -/
def escapedText : Text := "<p @a='é' b>\n\"\\</p>".toList

theorem convert_map_decodes_escaped :
    ∃ parsed, Markup.parse escapedText = .ok parsed ∧
      (componentCode escapedText ⟨some "a\"b.astro".toList, .both⟩ parsed.document).size ≤
        Offset.limit ∧
      ∃ code map encoded,
        convert escapedText ⟨some "a\"b.astro".toList, .both⟩ = .ok ⟨code, some ⟨map, encoded⟩⟩ ∧
        encoded.mappings = ";AAAA,EAAS,CAAC,OAAP,KAAG,KAAK,CAAC;AACZ,EAAE".toList ∧
        DecodedMap.read? encoded.json = some ⟨["a\"b.astro".toList], [escapedText],
          [⟨⟨1, 0⟩, some (0, ⟨0, 0⟩), none⟩, ⟨⟨1, 2⟩, some (0, ⟨0, 9⟩), none⟩,
            ⟨⟨1, 3⟩, some (0, ⟨0, 10⟩), none⟩, ⟨⟨1, 10⟩, some (0, ⟨0, 3⟩), none⟩,
            ⟨⟨1, 15⟩, some (0, ⟨0, 6⟩), none⟩, ⟨⟨1, 20⟩, some (0, ⟨0, 11⟩), none⟩,
            ⟨⟨1, 21⟩, some (0, ⟨0, 12⟩), none⟩, ⟨⟨2, 0⟩, some (0, ⟨1, 0⟩), none⟩,
            ⟨⟨2, 2⟩, some (0, ⟨1, 2⟩), none⟩]⟩ := by
  let tag : Markup.StartTag := ⟨⟨0, 13⟩, ⟨⟨1, 2⟩, ['p']⟩,
    [.normal ⟨3, 10⟩ ⟨⟨3, 5⟩, ['@', 'a']⟩ (.quoted ⟨⟨6, 10⟩, ['é'], true⟩),
      .normal ⟨11, 12⟩ ⟨⟨11, 12⟩, ['b']⟩ .empty], .closed⟩
  let document : Markup.Document := ⟨⟨0, 20⟩, none, ⟨0, 20⟩,
    [.element ⟨⟨0, 20⟩, tag, none, some ⟨16, 20⟩⟩ [.text ⟨⟨13, 16⟩, ['\n', '"', '\\']⟩]]⟩
  have hparse : Markup.parse escapedText = .ok ⟨document, []⟩ := by decide +kernel
  have hsize : (componentCode escapedText ⟨some "a\"b.astro".toList, .both⟩ document).size ≤
      Offset.limit := by decide +kernel
  obtain ⟨code, map, encoded, hconvert, -, -, hread⟩ := convert_map_decodes (by rfl) hparse hsize
  have hsegments : ((convert escapedText ⟨some "a\"b.astro".toList, .both⟩).toOption.bind
      (·.map)).map (·.encoded.segments) = some
        [⟨⟨1, 0⟩, ⟨0, 0⟩⟩, ⟨⟨1, 2⟩, ⟨0, 9⟩⟩, ⟨⟨1, 3⟩, ⟨0, 10⟩⟩, ⟨⟨1, 10⟩, ⟨0, 3⟩⟩,
          ⟨⟨1, 15⟩, ⟨0, 6⟩⟩, ⟨⟨1, 20⟩, ⟨0, 11⟩⟩, ⟨⟨1, 21⟩, ⟨0, 12⟩⟩, ⟨⟨2, 0⟩, ⟨1, 0⟩⟩,
          ⟨⟨2, 2⟩, ⟨1, 2⟩⟩] := by decide +kernel
  rw [hconvert] at hsegments
  have hencoded : encoded.segments = _ := Option.some.inj hsegments
  refine ⟨_, hparse, hsize, code, map, encoded, hconvert, ?_, ?_⟩
  · rw [EncodedMap.mappings, hencoded]
    decide +kernel
  · rw [hread, hencoded]
    rfl

end TsxLowering
