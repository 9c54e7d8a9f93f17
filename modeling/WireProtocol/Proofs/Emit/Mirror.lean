import WireProtocol.Proofs.Config.RuntimePath
import WireProtocol.Proofs.Emit.PropertyMirror
import WireProtocol.Proofs.Emit.Text
import WireProtocol.Proofs.Emit.Yields

/-!
# Encoders and decoders mirror each other

* `Program.Mirrors`, `Program.mirrors`: in the code of a description the two functions for a method follow
  the same chunks, and the two for the properties of a class follow the same places and types.
* `encoders_mirror_decoders`: so they do in the files of a generation.
-/

namespace WireProtocol

open Tokens

namespace Description

/-- The two functions decode and encode the arguments of the method, chunk by chunk. -/
def CodesMethod (d : Description) (m : Method) (code : Item × Item) : Prop :=
  ∃ chunks decode encode decoder encoder, d.packFields m.arguments = .ok chunks ∧
    Ident.ofFunction ["decode", m.className, m.name] = .ok decode ∧
    Ident.ofFunction ["encode", m.className, m.name] = .ok encode ∧
    code.1.IsFunction decode decoder ∧ DecodesChunks m.arguments chunks decoder ∧
    code.2.IsFunction encode encoder ∧ EncodesChunks chunks encoder

/-- The two functions decode and encode the properties of the class, one by one. -/
def CodesProperties (d : Description) (c : Class) (code : Item × Item) : Prop :=
  ∃ properties decode encode decoder encoder, d.classify c.properties = .ok properties ∧
    Ident.ofFunction ["decode", c.name, "properties"] = .ok decode ∧
    Ident.ofFunction ["encode", c.name, "properties"] = .ok encode ∧
    code.1.IsFunction decode decoder ∧ DecodesProperties properties decoder ∧
    code.2.IsFunction encode encoder ∧ EncodesProperties properties encoder

end Description

/-- The code has two functions for every method and two for every class, in order, which mirror each
other. -/
structure Program.Mirrors (program : Program) (d : Description) : Prop where
  methods : ∃ codes, List.Forall₂ d.CodesMethod d.methods codes ∧
    codes.map (·.1) <:+: program.definitions ∧ codes.map (·.2) <:+: program.definitions
  properties : ∃ codes, List.Forall₂ d.CodesProperties d.classes codes ∧
    codes.flatMap (fun code => [code.1, code.2]) <:+: program.definitions

section

variable {grammar : PathGrammar} {d : Description} {config : Config} {artifacts : Artifacts}

/-! ## Methods -/

theorem DecoderCode.isFunction_item {m : Method} {function record : Ident} {chunks : List (Chunk Field)}
    {code : DecoderCode} (h : ofMethod m function record chunks = .ok code) :
    code.item.IsFunction function code.body := by
  obtain ⟨fields, -, same⟩ := Except.bind_eq_ok.mp h
  cases same
  exact ⟨_, _, _, _, .head _, item_eq _⟩

theorem EncoderCode.isFunction_item {function record : Ident} {chunks : List (Chunk Field)}
    {code : EncoderCode} (h : ofChunks function record chunks = .ok code) :
    code.item.IsFunction function code.body := by
  obtain ⟨writes, -, same⟩ := Except.bind_eq_ok.mp h
  cases same
  obtain ⟨parameters, same⟩ := item_eq ⟨function, record, writes⟩
  exact ⟨_, _, parameters, _, .head _, same⟩

namespace MethodCode

theorem codesMethod {m : Method} {decoder : DecoderCode} {encoder : EncoderCode}
    (decoded : (MethodCode.decoder d m).Yields decoder) (encoded : MethodCode.encoder d m = .ok encoder) :
    d.CodesMethod m (decoder.item, encoder.item) := by
  obtain ⟨-, -, decoded⟩ := decoded.bind
  obtain ⟨record, -, decoded⟩ := decoded.bind
  obtain ⟨decode, named, decoded⟩ := decoded.bind
  obtain ⟨chunks, packed, decoded⟩ := decoded.bind
  obtain ⟨record', -, encoded⟩ := Except.bind_eq_ok.mp encoded
  obtain ⟨encode, named', encoded⟩ := Except.bind_eq_ok.mp encoded
  obtain ⟨chunks', packed', encoded⟩ := Except.bind_eq_ok.mp encoded
  -- Both functions are made from the chunks of the arguments.
  cases packed.ofExcept.symm.trans packed'
  have packed := Except.mapError_eq_ok.mp packed'
  exact ⟨chunks, decode, encode, decoder.body, encoder.body, packed, named.ofExcept, named',
    DecoderCode.isFunction_item decoded.ofExcept, DecoderCode.decodesChunks packed decoded.ofExcept,
    EncoderCode.isFunction_item encoded,
    EncoderCode.encodesChunks (Description.sound_of_packFields packed).1 encoded⟩

theorem mirrors_items {definitions : List Item} (h : (items d).Yields definitions) :
    ∃ codes, List.Forall₂ d.CodesMethod d.methods codes ∧ codes.map (·.1) <:+: definitions ∧
      codes.map (·.2) <:+: definitions := by
  obtain ⟨tables, -, h⟩ := h.bind
  obtain ⟨decoders, decoded, h⟩ := h.bind
  obtain ⟨encoders, encoded, h⟩ := h.bind
  cases h.eq_of_pure
  have decoded := decoded.forall₂_of_mapM
  have encoded := Except.forall₂_of_mapM encoded.ofExcept
  have same : decoders.length = encoders.length := decoded.length_eq.symm.trans encoded.length_eq
  refine ⟨(decoders.zip encoders).map fun code => (code.1.item, code.2.item), ?_, ?_, ?_⟩
  · rw [List.forall₂_map_right_iff]
    exact (decoded.zip encoded).imp fun m code h => codesMethod h.1 h.2
  · have first : ((decoders.zip encoders).map fun code => (code.1.item, code.2.item)).map (·.1) =
        decoders.map (·.item) := by
      conv_rhs => rw [← List.map_fst_zip (Nat.le_of_eq same)]
      simp
    rw [first]
    exact ⟨tables ++ [decodeDispatch decoders], [encodeDispatch encoders] ++ encoders.map (·.item), by simp⟩
  · have second : ((decoders.zip encoders).map fun code => (code.1.item, code.2.item)).map (·.2) =
        encoders.map (·.item) := by
      conv_rhs => rw [← List.map_snd_zip (Nat.le_of_eq same.symm)]
      simp
    rw [second]
    exact (List.suffix_append _ _).isInfix

end MethodCode

/-! ## Properties -/

theorem PropertyDecoderCode.isFunction_item {c : Class} {function record : Ident}
    {code : PropertyDecoderCode} (h : ofClass d c function record = .ok code) :
    code.item.IsFunction function code.body := by
  obtain ⟨reads, -, same⟩ := Except.bind_eq_ok.mp h
  cases same
  exact ⟨_, _, _, _, .head _, item_eq _⟩

theorem PropertyEncoderCode.isFunction_item {c : Class} {function record : Ident}
    {code : PropertyEncoderCode} (h : ofClass d c function record = .ok code) :
    code.item.IsFunction function code.body := by
  obtain ⟨writes, -, same⟩ := Except.bind_eq_ok.mp h
  cases same
  obtain ⟨parameters, same⟩ := item_eq ⟨function, record, writes⟩
  exact ⟨_, _, parameters, _, .head _, same⟩

namespace PropertyCode

theorem codesProperties {c : Class} {entry : Entry} (h : (PropertyCode.entry d c).Yields entry)
    (resolves : ∀ field ∈ c.properties.toList, d.Resolves field) :
    d.CodesProperties c (entry.decoder.item, entry.encoder.item) := by
  obtain ⟨properties, classified⟩ := Description.exists_classify_eq_ok.mpr resolves
  obtain ⟨-, -, h⟩ := h.bind
  obtain ⟨id, -, h⟩ := h.bind
  obtain ⟨record, -, h⟩ := h.bind
  obtain ⟨decode, named, h⟩ := h.bind
  obtain ⟨encode, named', h⟩ := h.bind
  obtain ⟨decoder, decoded, h⟩ := h.bind
  obtain ⟨encoder, encoded, h⟩ := h.bind
  cases h.eq_of_pure
  exact ⟨properties, decode, encode, decoder.body, encoder.body, classified, named.ofExcept, named'.ofExcept,
    PropertyDecoderCode.isFunction_item decoded.ofExcept,
    PropertyDecoderCode.decodesProperties classified decoded.ofExcept,
    PropertyEncoderCode.isFunction_item encoded.ofExcept,
    PropertyEncoderCode.encodesProperties classified encoded.ofExcept⟩

theorem mirrors_items {definitions : List Item} (h : (items d).Yields definitions)
    (resolves : ∀ c ∈ d.classes, ∀ field ∈ c.properties.toList, d.Resolves field) :
    ∃ codes, List.Forall₂ d.CodesProperties d.classes codes ∧
      codes.flatMap (fun code => [code.1, code.2]) <:+: definitions := by
  obtain ⟨entries, made, h⟩ := h.bind
  cases h.eq_of_pure
  refine ⟨entries.map fun e => (e.decoder.item, e.encoder.item), ?_, ?_⟩
  · rw [List.forall₂_map_right_iff]
    exact ((List.forall₂_and_left _ _).mpr ⟨resolves, made.forall₂_of_mapM⟩).imp
      fun c entry h => codesProperties h.2 h.1
  · rw [List.flatMap_map]
    exact (List.suffix_append _ _).isInfix

end PropertyCode

/-! ## Programs -/

theorem Program.mirrors {program : Program} (made : (Program.ofDescription d).Yields program)
    (resolves : ∀ c ∈ d.classes, ∀ field ∈ c.properties.toList, d.Resolves field) :
    program.Mirrors d := by
  obtain ⟨declarations, -, h⟩ := made.bind
  obtain ⟨methods, ofMethods, h⟩ := h.bind
  obtain ⟨properties, ofProperties, h⟩ := h.bind
  obtain ⟨lookups, -, h⟩ := h.bind
  cases h.eq_of_pure
  constructor
  · obtain ⟨codes, each, decoders, encoders⟩ := MethodCode.mirrors_items ofMethods
    have inside : methods <:+: methods ++ properties ++ lookups := ⟨[], properties ++ lookups, by simp⟩
    exact ⟨codes, each, decoders.trans inside, encoders.trans inside⟩
  · obtain ⟨codes, each, listed⟩ := PropertyCode.mirrors_items ofProperties resolves
    exact ⟨codes, each, listed.trans ⟨methods, lookups, rfl⟩⟩

/-- The files of a generation have encoders and decoders in them that mirror each other: those of a method
handle the same chunks by the same steps in the same order, and those of a class have the same flags and the same
steps for the same properties. -/
theorem encoders_mirror_decoders (generated : (generate grammar d config).1 = .ok artifacts) :
    ∃ program path, (Program.ofDescription d).Yields program ∧ config.runtimePath grammar = .ok path ∧
      artifacts = program.artifacts (d.version.artifactName config.artifactStem) d.version path ∧
      program.WrittenIn path artifacts ∧ program.Mirrors d := by
  obtain ⟨program, path, made, found, same⟩ := exists_program generated
  exact ⟨program, path, made, found, same, same ▸ program.writtenIn _ _ _,
    Program.mirrors made (generate_properties generated)⟩

end

namespace NineBits

def config : Config := ⟨"rt", "framing"⟩

/-- A method with more bits than fit into an octet, between an integer and a string. -/
def publish : Method :=
  let bits := ["a", "b", "c", "d", "e", "f", "g", "h", "i"].map fun name => Field.new name "bit" none
  let first := (Method.new 40 "publish").withArgument (.new "ticket" "short" none)
  (bits.foldl Method.withArgument first).withArgument (.new "key" "shortstr" none)

/-- A class with that method and with properties of every kind. -/
def basic : Class :=
  ((((Class.new 60 "basic").withProperty (.new "kind" "shortstr" none)).withProperty
    (.new "persistent" "bit" none)).withProperty (.new "priority" "octet" none)).withMethod publish

def description : Description :=
  { Description.new ⟨0, 9, 1⟩ 5672 with
    classes := [basic]
    constants := [⟨"internal-error", 541, .hard⟩]
    bounded := by decide }

theorem exists_generated : ∃ artifacts, (generate .names description config).1 = .ok artifacts := by
  have complete : (generate .names description config).1.isOk = true := by
    unfold generate generateSteps
    rw [Config.runtimePath_of_rt rfl]
    decide +kernel
  exact Except.exists_eq_ok_of_isOk complete

/-- The code has a function of that name, and this is so of its body. -/
def Has (program : Program) (function : String) (holds : Tokens → Prop) : Prop :=
  ∃ item ∈ program.definitions, ∃ body, item.IsFunction (.plain function) body ∧ holds body

theorem steps {chunks : List (Chunk Field)}
    (packed : description.packFields (publish.attach 60 "basic").arguments = .ok chunks) :
    chunks.map Chunk.step = ["short", "octet", "octet", "shortstr"] := by
  have known : ((description.packFields (publish.attach 60 "basic").arguments).map
      (·.map Chunk.step)).toOption = some ["short", "octet", "octet", "shortstr"] := by
    decide +kernel
  rw [packed] at known
  exact Option.some.inj known

theorem flags {properties : List (Field × WireType)}
    (classified : description.classify basic.properties = .ok properties) :
    properties.map (fun property => [presenceWord property.1.index]) =
      [["0x8000u16"], ["0x4000u16"], ["0x2000u16"]] := by
  have fields := (Description.classify_eq_ok.mp classified).1
  have listed : basic.properties.toList.map (fun field => [presenceWord field.index]) =
      [["0x8000u16"], ["0x4000u16"], ["0x2000u16"]] := by
    decide +kernel
  rwa [← fields, List.map_map] at listed

/-- The bits are read and written as two octets, and every property of the class sets its own flag. -/
theorem nine_bits_are_mirrored : ∃ program path,
    (generate .names description config).1 = .ok (Program.artifacts program "framing_0_9_1" ⟨0, 9, 1⟩ path) ∧
    Has program "decode_basic_publish" (fun decoder =>
      (calls "r" decoder).map (·.1) = ["short", "octet", "octet", "shortstr", "finish"]) ∧
    Has program "encode_basic_publish" (fun encoder =>
      (calls "w" encoder).map (·.1) = ["short", "octet", "octet", "shortstr", "into_bytes"]) ∧
    Has program "encode_basic_properties" (fun encoder =>
      (conditionals encoder).map (fun conditional => settings "flags" conditional.2) =
        [["0x8000u16"], ["0x4000u16"], ["0x2000u16"]]) := by
  obtain ⟨artifacts, generated⟩ := exists_generated
  obtain ⟨program, path, -, -, same, -, mirrors⟩ := encoders_mirror_decoders generated
  have named : description.version.artifactName config.artifactStem = "framing_0_9_1" := by
    decide +kernel
  refine ⟨program, path, by rw [generated, same, named]; rfl, ?_⟩
  obtain ⟨codes, each, decoders, encoders⟩ := mirrors.methods
  obtain ⟨entries, each', listed⟩ := mirrors.properties
  rw [show description.methods = [publish.attach 60 "basic"] from rfl] at each
  rw [show description.classes = [basic] from rfl] at each'
  obtain - | ⟨⟨chunks, decode, encode, decoder, encoder, packed, named, named', decodes, reads, encodes,
    writes⟩, -⟩ := each
  obtain - | ⟨⟨properties, -, write, -, writer, classified, -, named'', -, -, writes', flagged⟩, -⟩ := each'
  cases Except.eq_of_toOption (.plain "decode_basic_publish") (by decide +kernel) named
  cases Except.eq_of_toOption (.plain "encode_basic_publish") (by decide +kernel) named'
  cases Except.eq_of_toOption (.plain "encode_basic_properties") (by decide +kernel) named''
  refine ⟨⟨_, decoders.subset List.mem_cons_self, decoder, decodes, ?_⟩,
    ⟨_, encoders.subset List.mem_cons_self, encoder, encodes, ?_⟩,
    ⟨_, listed.subset (by simp), writer, writes', ?_⟩⟩
  · refine reads.steps.trans ?_
    rw [steps packed]
    rfl
  · have some : chunks.isEmpty = false := by
      cases chunks with
      | nil => cases steps packed
      | cons => rfl
    refine writes.steps.trans ?_
    rw [steps packed, some]
    rfl
  · refine (flagged.conditionals.imp fun property conditional own => own.flag.symm).map_eq.symm.trans ?_
    exact flags classified

end NineBits

end WireProtocol
