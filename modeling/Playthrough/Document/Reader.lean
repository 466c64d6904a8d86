import Playthrough.Document
import Playthrough.Yaml.Decoder

/-!
# The YAML form of layout documents

The keys of layout documents and what their values have to be. JSON documents can be
read too, as they are YAML documents. Documents with directives or tags are refused.
-/

namespace Playthrough.Document

open Yaml (Decoder)
open Yaml.Decoder (Field Record)

/-- Counts and page numbers have 32 bits. -/
def wordDecoder : Decoder Nat := Decoder.natural "u32" 0x100000000

/-- Iteration factors have 64 bits. -/
def sizeDecoder : Decoder Nat := Decoder.natural "usize" Decoder.naturalLimit

/-- The keys of the options of a layout. -/
def settingsRecord : Record Settings where
  name := "WalkerConfig"
  blank := {}
  fields := [.optional "iteration-factor" sizeDecoder fun r a => { r with iterationFactor := a }]

/-- The keys of a rectangle. -/
def regionRecord : Record Region where
  name := "Bounds"
  blank := .wholePage
  fields := [
    .mandatory "x" Decoder.real fun r a => { r with x := a },
    .mandatory "y" Decoder.real fun r a => { r with y := a },
    .mandatory "width" Decoder.real fun r a => { r with width := a },
    .mandatory "height" Decoder.real fun r a => { r with height := a }]

/-- The keys of a mark. -/
def markRecord : Record MarkEntry where
  name := "RawMarker"
  blank := { kind := .fine, x := .zero }
  fields := [
    .mandatory "kind" (Decoder.named MarkName.all MarkName.text) fun r a => { r with kind := a },
    .mandatory "x" Decoder.real fun r a => { r with x := a },
    .optional "times" (Decoder.optional wordDecoder) fun r a => { r with times := a },
    .optional "numbers" (Decoder.optional (Decoder.listOf wordDecoder)) fun r a =>
      { r with numbers := a },
    .optional "label" (Decoder.optional Decoder.text) fun r a => { r with label := a }]

/-- The keys of a segment. -/
def segmentRecord : Record SegmentEntry where
  name := "RawSegment"
  blank := {}
  fields := [
    .optional "id" (Decoder.optional Decoder.uuid) fun r a => { r with id := a },
    .optional "label" (Decoder.optional Decoder.text) fun r a => { r with label := a },
    .optional "image" (Decoder.optional Decoder.text) fun r a => { r with image := a },
    .optional "page" wordDecoder fun r a => { r with page := a },
    .optional "bounds" regionRecord.decode fun r a => { r with region := a },
    .optional "markers" (Decoder.listOf markRecord.decode) fun r a => { r with marks := a }]

/-- The keys of a layout. -/
def layoutRecord : Record Document where
  name := "RawLayout"
  blank := {}
  fields := [
    .optional "title" (Decoder.optional Decoder.text) fun r a => { r with title := a },
    .optional "options" settingsRecord.decode fun r a => { r with settings := a },
    .optional "segments" (Decoder.listOf segmentRecord.decode) fun r a =>
      { r with segments := a }]

/-- Reads a document. -/
def ofText (text : String) : Except Yaml.DecodeError Document :=
  (Yaml.Source.ofText text.toList).decode layoutRecord.decode

end Playthrough.Document
