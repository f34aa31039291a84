import WatchedAgent.Model.HostCollectors

/-!
# `WatchedAgent.Proofs.MountPoints`: the identifiers of mount points

`url_encode` writes to a stream whose fill character and base stay, whose width counts for one
insertion, and whose case it switches for each byte it encodes. Between two turns of its loop
the stream is in one format (`urlEncodeByte_stream`), so the text is the percent-encoding of
the bytes (`urlEncode_eq`).

`identifiers_faithful`: the text has unreserved characters and triples only and decodes to the
bytes, and what `diskUsageCollector` does with a ressource comes from one mount point.
-/

set_option autoImplicit false

namespace WatchedAgent.Proofs

open WatchedAgent.Lib
open WatchedAgent.Model

namespace MountPoints

open WatchedAgent.Model.Collecting
open WatchedAgent.Lib.Percent (charOf encode encodeByte isUnreserved wellFormed decode)

/-- The stream of `url_encode` between two turns of the loop. -/
def stream (text : List Char) : OStream := { text, fill := '0', hex := true }

/-- A turn appends the byte or its triple, and leaves the format as it was. -/
theorem urlEncodeByte_stream (text : List Char) (c : UInt8) :
    urlEncodeByte (stream text) c = stream (text ++ encodeByte isKept c) := by
  unfold urlEncodeByte encodeByte
  split
  · exact OStream.putChar_of_width rfl _
  · -- The width is set after the `%`, which is written without one.
    rw [OStream.putChar_of_width rfl]
    unfold OStream.putNat OStream.pad OStream.digits
    show ({ text := text ++ ['%'] ++
        ((Nat.toDigits 16 c.toNat).map Char.toUpper).leftpad 2 '0', fill := '0', hex := true } :
        OStream) = _
    rw [OStream.leftpad_toDigits, List.append_assoc]
    rfl

theorem foldl_urlEncodeByte (value : List UInt8) (text : List Char) :
    value.foldl urlEncodeByte (stream text) = stream (text ++ encode isKept value) := by
  unfold encode
  induction value generalizing text with
  | nil => rw [List.foldl_nil, List.flatMap_nil, List.append_nil]
  | cons c value ih =>
      rw [List.foldl_cons, urlEncodeByte_stream, ih, List.flatMap_cons, List.append_assoc]

/-- `url_encode` is percent-encoding. -/
theorem urlEncode_eq (value : List UInt8) :
    urlEncode value = String.ofList (encode isKept value) := by
  unfold urlEncode OStream.str
  show String.ofList (value.foldl urlEncodeByte (stream [])).text = _
  rw [foldl_urlEncodeByte]
  rfl

/-- What is kept is unreserved. -/
theorem isUnreserved_of_isKept : ∀ b : UInt8, isKept b = true → isUnreserved (charOf b) = true := by
  have hall : ∀ n < 256, isKept (UInt8.ofNat n) = true →
      isUnreserved (charOf (UInt8.ofNat n)) = true := by decide +kernel
  intro b
  have hb := hall b.toNat b.toNat_lt
  rwa [UInt8.ofNat_toNat] at hb

theorem urlEncode_injective : Function.Injective urlEncode := by
  intro a b h
  rw [urlEncode_eq, urlEncode_eq] at h
  exact Percent.encode_injective (by decide) (String.ofList_injective h)

/-- The ressource that an event is about. -/
def resOf : Event → Option String
  | .assign res _ => some res
  | .addRessource res _ => some res
  | .call res _ => some res
  | _ => none

/-- All that is done for an entry is done with one ressource. -/
theorem resOf_diskUsageEntry (real : Option ℚ → Json) (m : MntEnt) :
    ∀ e ∈ diskUsageEntry real m, resOf e = some (urlEncode m.dir) := by
  unfold diskUsageEntry
  intro e he
  split at he
  · split at he
    · exact absurd he List.not_mem_nil
    · simp only [List.mem_append, List.mem_cons, List.not_mem_nil, or_false] at he
      rcases he with (rfl | rfl) | he
      · rfl
      · rfl
      · obtain ⟨property, -, rfl⟩ := List.mem_map.mp he
        rfl
  · exact absurd he List.not_mem_nil

/-- The identifiers are faithful: they have only unreserved characters and triples, so no `/`,
they decode to the name they were made from, and in all passes of the collector what is done
with a ressource is done for one mount point. -/
theorem identifiers_faithful (real : Option ℚ → Json) :
    (∀ s : List UInt8, wellFormed (urlEncode s).toList = true ∧ '/' ∉ (urlEncode s).toList ∧
      decode (urlEncode s).toList = some s) ∧
    ∀ (passes : List (Plugin.Input .diskusage)), ∀ e ∈ Plugin.events real .diskusage passes,
      ∀ res, resOf e = some res → ∃ m : MntEnt, (∃ mtab ∈ passes, m ∈ Option.getD mtab []) ∧
        res = urlEncode m.dir ∧ ∀ m' : MntEnt, res = urlEncode m'.dir → m'.dir = m.dir := by
  refine ⟨fun s => ?_, fun passes e he res hres => ?_⟩
  · have hform : wellFormed (encode isKept s) = true :=
      Percent.wellFormed_encode isUnreserved_of_isKept s
    rw [urlEncode_eq, String.toList_ofList]
    refine ⟨hform, fun hslash => ?_, Percent.decode_encode (by decide) s⟩
    rcases Percent.unreserved_or_of_wellFormed hform '/' hslash with h | h
    · exact absurd h (by decide)
    · exact absurd h (by decide)
  · -- Only the turns of the passes are about a ressource.
    rw [Plugin.events, List.mem_append, List.mem_cons, List.mem_flatMap] at he
    rcases he with he | rfl | ⟨mtab, hmtab, he⟩
    · exact absurd he List.not_mem_nil
    · exact absurd hres (by simp [resOf])
    · rcases List.mem_cons.mp he with rfl | he
      · exact absurd hres (by simp [resOf])
      · obtain ⟨m, hm, he⟩ := List.mem_flatMap.mp he
        have heq : res = urlEncode m.dir :=
          Option.some.inj (hres.symm.trans (resOf_diskUsageEntry real m e he))
        exact ⟨m, ⟨mtab, hmtab, hm⟩, heq, fun m' hm' => urlEncode_injective (hm'.symm.trans heq)⟩

end MountPoints

end WatchedAgent.Proofs
