import WatchedAgent.Lib.Percent
import WatchedAgent.Model.Requests

/-!
# `WatchedAgent.Proofs.QueryStrings`: the parameters of a request

`parse_query_string` goes over the query string once, with the positions where the current
parameter begins, where its last `=` is and where its value begins.

* `parse_query_string_eq`: this is to split at each `&`, and each part at its last `=`.
* `query_round_trip`: so the parameters that a client has encoded are read back.
-/

set_option autoImplicit false

namespace WatchedAgent.Proofs.QueryStrings

open WatchedAgent.Lib
open WatchedAgent.Model.Requests
open WatchedAgent.Model.Routes (query)

/-! ### The last `=` -/

/-- A text before and behind its last `=`. -/
def lastSplit : List Char → Option (List Char × List Char)
  | [] => none
  | c :: cs =>
      match lastSplit cs with
      | some (k, v) => some (c :: k, v)
      | none => if c = '=' then some ([], cs) else none

theorem lastSplit_append_eq (cs : List Char) : lastSplit (cs ++ ['=']) = some (cs, []) := by
  induction cs with
  | nil => rfl
  | cons c cs ih => rw [List.cons_append, lastSplit, ih]

theorem lastSplit_append_ne (cs : List Char) {c : Char} (hc : c ≠ '=') :
    lastSplit (cs ++ [c]) = (lastSplit cs).map (fun s => (s.1, s.2 ++ [c])) := by
  induction cs with
  | nil =>
      show (if c = '=' then some ([], []) else none) = none
      rw [if_neg hc]
  | cons b cs ih =>
      rw [List.cons_append, lastSplit, ih, lastSplit]
      cases lastSplit cs with
      | some s => rfl
      | none =>
          dsimp only [Option.map_none]
          split <;> rfl

theorem lastSplit_eq_some {cs k v : List Char} (h : lastSplit cs = some (k, v)) :
    cs = k ++ '=' :: v := by
  induction cs generalizing k v with
  | nil => exact absurd h (by simp [lastSplit])
  | cons c cs ih =>
      unfold lastSplit at h
      cases hrest : lastSplit cs with
      | some s =>
          rw [hrest] at h
          obtain ⟨rfl, rfl⟩ := Prod.mk.inj (Option.some.inj h)
          rw [ih hrest, List.cons_append]
      | none =>
          rw [hrest] at h
          dsimp only at h
          split at h
          · rename_i hc
            obtain ⟨rfl, rfl⟩ := Prod.mk.inj (Option.some.inj h)
            rw [hc, List.nil_append]
          · exact absurd h (by simp)

/-- A text without `=` behind a `=`. -/
theorem lastSplit_of_not_mem (k : List Char) {v : List Char} (hv : '=' ∉ v) :
    lastSplit (k ++ '=' :: v) = some (k, v) := by
  induction v using List.reverseRecOn with
  | nil => exact lastSplit_append_eq k
  | append_singleton v c ih =>
      rw [List.mem_append, List.mem_singleton, not_or] at hv
      have hassoc : k ++ '=' :: (v ++ [c]) = (k ++ '=' :: v) ++ [c] := by simp
      rw [hassoc, lastSplit_append_ne _ (Ne.symm hv.2), ih hv.1]
      rfl

/-! ### The loop -/

/-- The entry of a part between two `&`. -/
def entry (part : List Char) : List (String × String) :=
  match lastSplit part with
  | none => emplace part [] []
  | some (k, v) => emplace k v []

theorem emplace_eq (parameter value : List Char) (result : List (String × String)) :
    emplace parameter value result = result ++ emplace parameter value [] := by
  unfold emplace
  split
  · rw [List.append_nil]
  · rfl

/-- The variables of the loop within a part, of which `cur` was seen. -/
def within (start : Nat) (cur : List Char) (result : List (String × String)) : QueryScan where
  parameter_pos := start
  parameter_end_pos := (lastSplit cur).map (fun s => start + s.1.length)
  value_pos := (lastSplit cur).map (fun s => start + s.1.length + 1)
  result := result

/-- A turn within a part. -/
theorem next_within (q : List Char) (start : Nat) (cur : List Char)
    (result : List (String × String)) {c : Char} (hc : c ≠ '&') :
    QueryScan.next q (within start cur result) (c, start + cur.length)
      = within start (cur ++ [c]) result := by
  unfold QueryScan.next
  dsimp only
  rw [if_neg hc]
  by_cases heq : c = '='
  · rw [if_pos heq, heq]
    unfold within
    rw [lastSplit_append_eq]
    rfl
  · rw [if_neg heq]
    unfold within
    rw [lastSplit_append_ne cur heq, Option.map_map, Option.map_map]
    rfl

/-- The turns of a part. -/
theorem foldl_part (q : List Char) (start : Nat) {part : List Char} (hpart : '&' ∉ part)
    (result : List (String × String)) :
    (part.zipIdx start).foldl (QueryScan.next q) (within start [] result)
      = within start part result := by
  induction part using List.reverseRecOn with
  | nil => rfl
  | append_singleton part c ih =>
      rw [List.mem_append, List.mem_singleton, not_or] at hpart
      rw [List.zipIdx_append, List.foldl_append, ih hpart.1]
      exact next_within q start part result (Ne.symm hpart.2)

/-- The turn at a `&` takes the part as an entry. -/
theorem next_ampersand {q done part rest : List Char} (hq : q = done ++ (part ++ '&' :: rest))
    (result : List (String × String)) :
    QueryScan.next q (within done.length part result) ('&', done.length + part.length)
      = within (done.length + part.length + 1) [] (result ++ entry part) := by
  have hdrop : q.drop done.length = part ++ '&' :: rest := by
    rw [hq, List.drop_left]
  unfold QueryScan.next within entry
  dsimp only
  rw [if_pos rfl, hdrop]
  cases hsplit : lastSplit part with
  | none =>
      rw [Option.map_none, Option.map_none, Option.getD_none, Nat.add_sub_cancel_left,
        List.take_left, emplace_eq]
      rfl
  | some s =>
      obtain ⟨k, v⟩ := s
      have hpart := lastSplit_eq_some hsplit
      have hdropValue : q.drop (done.length + k.length + 1) = v ++ '&' :: rest := by
        rw [Nat.add_assoc, ← List.drop_drop, hdrop, hpart, List.append_assoc, List.cons_append,
          List.append_cons]
        exact List.drop_left' (by simp)
      have hkey : (part ++ '&' :: rest).take (done.length + k.length - done.length) = k := by
        rw [Nat.add_sub_cancel_left, hpart, List.append_assoc, List.take_left]
      have hvalue : done.length + part.length - (done.length + k.length + 1) = v.length := by
        rw [hpart, List.length_append, List.length_cons]
        omega
      rw [Option.map_some, Option.map_some, Option.getD_some, hkey]
      dsimp only
      rw [hdropValue, hvalue, List.take_left, emplace_eq]
      rfl

/-- What `parse_query_string` makes of the variables after the loop. -/
def finish (q : List Char) (s : QueryScan) : List (String × String) :=
  if s.parameter_pos < q.length then
    let rest := q.drop s.parameter_pos
    let parameter := match s.parameter_end_pos with
      | none => rest
      | some parameter_end_pos => rest.take (parameter_end_pos - s.parameter_pos)
    let value := match s.value_pos with
      | none => []
      | some value_pos => q.drop value_pos
    emplace parameter value s.result
  else s.result

/-- The last part is an entry too. -/
theorem finish_within {q done part : List Char} (hq : q = done ++ part)
    (result : List (String × String)) :
    finish q (within done.length part result) = result ++ entry part := by
  have hdrop : q.drop done.length = part := by
    rw [hq, List.drop_left]
  have hlength : q.length = done.length + part.length := by
    rw [hq, List.length_append]
  unfold finish within
  dsimp only
  rw [hdrop]
  by_cases hpart : part = []
  · -- There is nothing behind the last `&`.
    subst hpart
    rw [if_neg (by rw [hlength]; exact Nat.lt_irrefl _)]
    exact (List.append_nil result).symm
  · have hpos : 0 < part.length := List.length_pos_iff.mpr hpart
    rw [if_pos (by omega)]
    unfold entry
    cases hsplit : lastSplit part with
    | none =>
        rw [Option.map_none, emplace_eq]
        rfl
    | some s =>
        obtain ⟨k, v⟩ := s
        have hcut := lastSplit_eq_some hsplit
        have hkey : part.take (done.length + k.length - done.length) = k := by
          rw [Nat.add_sub_cancel_left, hcut, List.take_left]
        have hvalue : q.drop (done.length + k.length + 1) = v := by
          rw [Nat.add_assoc, ← List.drop_drop, hdrop, hcut, List.append_cons]
          exact List.drop_left' (by simp)
        rw [Option.map_some, Option.map_some]
        dsimp only
        rw [hkey, hvalue, emplace_eq]

/-- The loop behind the parts that are done. -/
theorem finish_foldl {q : List Char} (done rest : List Char) (hq : q = done ++ rest)
    (result : List (String × String)) :
    finish q ((rest.zipIdx done.length).foldl (QueryScan.next q) (within done.length [] result))
      = result ++ (rest.splitOn '&').flatMap entry := by
  induction hn : rest.length using Nat.strong_induction_on generalizing done rest result with
  | _ n ih =>
      by_cases hmem : '&' ∈ rest
      · obtain ⟨part, rest', rfl, hpart⟩ := List.eq_append_cons_of_mem hmem
        have hsplit : (part ++ '&' :: rest').splitOn '&' = part :: rest'.splitOn '&' := by
          refine List.splitOnP_append_cons_of_forall_mem (fun x hx => ?_) '&' rfl rest'
          rw [beq_eq_false_iff_ne]
          rintro rfl
          exact hpart hx
        have hdone : done.length + part.length + 1 = (done ++ (part ++ ['&'])).length := by
          simp only [List.length_append, List.length_cons, List.length_nil]
          omega
        have hrest : rest'.length < n := by
          rw [← hn, List.length_append, List.length_cons]
          omega
        rw [List.zipIdx_append, List.foldl_append, foldl_part q done.length hpart, List.zipIdx_cons,
          List.foldl_cons, next_ampersand hq, hdone,
          ih _ hrest (done ++ (part ++ ['&'])) rest' (by rw [hq]; simp) _ rfl, hsplit,
          List.flatMap_cons, List.append_assoc]
      · have hsplit : rest.splitOn '&' = [rest] := by
          refine List.splitOnP_eq_singleton fun x hx => ?_
          rw [beq_eq_false_iff_ne]
          rintro rfl
          exact hmem hx
        rw [foldl_part q done.length hmem, finish_within hq, hsplit, List.flatMap_singleton]

/-- For every query string, the result is that of splitting it at each `&` and each part at its
last `=`. -/
theorem parse_query_string_eq (query_string : List Char) :
    parse_query_string query_string = (query_string.splitOn '&').flatMap entry :=
  finish_foldl [] query_string rfl []

/-! ### Encoded parameters -/

section
variable {keep : UInt8 → Bool}

/-- A byte that a client has encoded is read back. -/
theorem decode_encodeByte (hkeep : ∀ b, keep b = true → Percent.isUnreserved (Percent.charOf b) = true)
    (b : UInt8) (cs : List Char) :
    decode (Percent.encodeByte keep b ++ cs) = Percent.charOf b :: decode cs := by
  unfold Percent.encodeByte
  split
  · rename_i hb
    have hun := hkeep b hb
    have hpercent : Percent.charOf b ≠ '%' := Percent.isUnreserved_ne_percent hun
    have hplus : Percent.charOf b ≠ '+' := by
      intro h
      rw [h] at hun
      exact absurd hun (by decide)
    rw [List.singleton_append]
    conv_lhs => unfold decode
    split
    · rename_i heq
      exact absurd (List.cons.inj heq).1 hpercent
    · rename_i heq
      exact absurd (List.cons.inj heq).1 hplus
    · rename_i heq
      obtain ⟨rfl, rfl⟩ := List.cons.inj heq
      rfl
    · rename_i heq
      exact absurd heq (by simp)
  · show hexByte (Text.upperDigit (b.toNat / 16)) (Text.upperDigit (b.toNat % 16)) :: decode cs = _
    have hvalue : Text.strtoul 16 (String.ofList (Text.hexPair b)) = b.toNat := by
      have hrow : Text.bytesValue [b] = b.toNat := Nat.zero_add _
      have hsmall : Text.bytesValue [b] ≤ 0xffffffffffffffff := by
        have hlt := b.toNat_lt
        omega
      rw [Text.strtoul_hexPairs (by rw [String.toList_ofList]; rfl) hsmall, hrow]
    unfold hexByte
    rw [show [Text.upperDigit (b.toNat / 16), Text.upperDigit (b.toNat % 16)] = Text.hexPair b from rfl,
      hvalue, Nat.mod_eq_of_lt b.toNat_lt, ← Percent.toNat_charOf, Char.ofNat_toNat]

theorem decode_encode (hkeep : ∀ b, keep b = true → Percent.isUnreserved (Percent.charOf b) = true)
    (bs : List UInt8) : decode (Percent.encode keep bs) = bs.map Percent.charOf := by
  unfold Percent.encode
  induction bs with
  | nil => rfl
  | cons b bs ih => rw [List.flatMap_cons, decode_encodeByte hkeep, ih, List.map_cons]

/-- An encoded text has none of the characters that split a query string. -/
theorem not_mem_encode (hkeep : ∀ b, keep b = true → Percent.isUnreserved (Percent.charOf b) = true)
    (bs : List UInt8) {c : Char} (hc : Percent.isUnreserved c = false) (hpercent : c ≠ '%') :
    c ∉ Percent.encode keep bs := by
  intro h
  rcases Percent.unreserved_or_of_wellFormed (Percent.wellFormed_encode hkeep bs) c h with h | h
  · exact Bool.false_ne_true (hc.symm.trans h)
  · exact hpercent h

/-- A parameter as a client writes it. -/
def pair (keep : UInt8 → Bool) (arg : String × List UInt8) : List Char :=
  arg.1.toList ++ '=' :: Percent.encode keep arg.2

/-- A query string as a client writes it. -/
def queryText (keep : UInt8 → Bool) (args : List (String × List UInt8)) : List Char :=
  ['&'].intercalate (args.map (pair keep))

theorem entry_pair (hkeep : ∀ b, keep b = true → Percent.isUnreserved (Percent.charOf b) = true)
    {arg : String × List UInt8} (hkey : arg.1 ≠ "") :
    entry (pair keep arg) = [(arg.1, String.ofList (arg.2.map Percent.charOf))] := by
  have hne : arg.1.toList ≠ [] := fun h => hkey (String.toList_eq_nil_iff.mp h)
  unfold entry pair
  rw [lastSplit_of_not_mem _ (not_mem_encode hkeep arg.2 (by decide) (by decide))]
  dsimp only
  unfold emplace
  rw [if_neg hne, decode_encode hkeep, String.ofList_toList, List.nil_append]

/-- For every path and all parameters, whose values a client has percent-encoded (any bytes, and
with any choice of unreserved characters that stay): the request has these parameters with the
bytes of their values. -/
theorem query_round_trip
    (hkeep : ∀ b, keep b = true → Percent.isUnreserved (Percent.charOf b) = true) (path : String)
    (hpath : '?' ∉ path.toList) (args : List (String × List UInt8))
    (hkeys : ∀ arg ∈ args, arg.1 ≠ "" ∧ '&' ∉ arg.1.toList) :
    queryArgs (path ++ "?" ++ String.ofList (queryText keep args))
      = args.map (fun arg => (arg.1, String.ofList (arg.2.map Percent.charOf))) := by
  have hsplit : (path ++ "?" ++ String.ofList (queryText keep args)).toList
      = path.toList ++ '?' :: queryText keep args := by
    rw [String.toList_append, String.toList_append, String.toList_ofList]
    simp
  have hquery : query (path ++ "?" ++ String.ofList (queryText keep args))
      = some (String.ofList (queryText keep args)) := by
    unfold query
    rw [Text.find_of_split hsplit hpath, Option.map_some, hsplit, List.append_cons]
    congr 2
    exact List.drop_left' (by simp)
  unfold queryArgs
  rw [hquery, Option.map_some, Option.getD_some, String.toList_ofList, parse_query_string_eq]
  cases args with
  | nil => rfl
  | cons arg args =>
      have hparts : (queryText keep (arg :: args)).splitOn '&' = (arg :: args).map (pair keep) := by
        refine List.splitOn_intercalate '&' (List.forall_mem_map.mpr fun a ha => ?_) (by simp)
        unfold pair
        rw [List.mem_append, List.mem_cons, not_or, not_or]
        exact ⟨(hkeys a ha).2, by decide, not_mem_encode hkeep a.2 (by decide) (by decide)⟩
      rw [hparts, List.flatMap_map, List.map_eq_flatMap]
      exact List.flatMap_congr fun a ha => entry_pair hkeep (hkeys a ha).1

/-- Two parameters, of which one value has a `&`, a blank and a byte that is no character. -/
theorem query_round_trip_two :
    queryArgs ("/all" ++ "?" ++ String.ofList (queryText (fun b => b == 0x61)
      [("since", [0x61]), ("q", [0x26, 0x20, 0xff])]))
        = [("since", "a"), ("q", "& \xff")] :=
  query_round_trip (by
    intro b hb
    rw [eq_of_beq hb]
    decide) "/all" (by decide) [("since", [0x61]), ("q", [0x26, 0x20, 0xff])] (by decide)

end

end WatchedAgent.Proofs.QueryStrings
