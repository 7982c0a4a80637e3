import FrameMerge.Endpoint
import FrameMerge.Proofs.Characters
import FrameMerge.Proofs.Cuts
import FrameMerge.Proofs.Numerals

/-!
# Endpoints as text

The printer brackets a host for what stands anywhere in it, the reader takes a bracket for what stands at the start, and ends
the host at the first closing one. Where the two differ, an endpoint that is written and read is another one or none
(`Endpoint.parse_text_eq_ok_iff`). What the reader takes for an address is said apart from both (`Endpoint.IsAddress`).
-/

namespace FrameMerge.Endpoint

open Text (StandsFor)

/-- How an address tells a host and a port: the host in brackets, without a closing bracket in it, or by itself, without an
opening bracket at its start; then a colon and the port. -/
inductive IsAddress (host : List Char) (port : UInt16) : List Char → Prop
  | bracketed {digits : List Char} (hhost : ']' ∉ host) (hport : StandsFor digits port.toNat) :
    IsAddress host port ('[' :: (host ++ ']' :: ':' :: digits))
  | bare {digits : List Char} (hhost : host.head? ≠ some '[') (hport : StandsFor digits port.toNat) :
    IsAddress host port (host ++ ':' :: digits)

/-! ## Reading addresses -/

/-- Digits that stand for a port are read as it, since every port is in bounds. -/
theorem readNatural_port {digits : List Char} {port : UInt16} (h : StandsFor digits port.toNat) :
    Text.readNatural Text.bound16 digits = .ok port.toNat :=
  Text.readNatural_eq_ok_iff.2 ⟨h, port.toNat_lt⟩

/-- Text is read as a port exactly if it stands for it. -/
theorem readPort_eq_ok_iff {address digits : List Char} {port : UInt16} :
    readPort address digits = .ok port ↔ StandsFor digits port.toNat := by
  unfold readPort
  constructor
  · intro h
    split at h
    · cases h
    · rename_i n hread
      obtain ⟨hstands, hbound⟩ := Text.readNatural_eq_ok_iff.1 hread
      have hport : n.toUInt16.toNat = n := Nat.mod_eq_of_lt hbound
      rwa [← Except.ok.inj h, hport]
  · intro h
    rw [readNatural_port h]
    exact congrArg _ UInt16.ofNat_toNat

/-- A host goes with what is read as the port. -/
theorem map_readPort_eq_ok_iff {address inside host digits : List Char} {port : UInt16} :
    ((readPort address digits).map fun port => (inside, port)) = .ok (host, port) ↔
      inside = host ∧ StandsFor digits port.toNat := by
  rw [← @readPort_eq_ok_iff address]
  cases readPort address digits with
  | error cause => simp [Except.map]
  | ok read => simp [Except.map]

/-- An address is taken apart exactly if it is one. -/
theorem splitAddress_eq_ok_iff {address host : List Char} {port : UInt16} :
    splitAddress address = .ok (host, port) ↔ IsAddress host port address := by
  constructor
  · intro h
    unfold splitAddress at h
    split at h
    · split at h
      · cases h
      · rename_i inside digits hcut
        obtain ⟨rfl, hinside⟩ := Text.cut?_eq_some_iff.1 hcut
        obtain ⟨rfl, hport⟩ := map_readPort_eq_ok_iff.1 h
        exact .bracketed hinside hport
      · cases h
    · rename_i hopen
      split at h
      · cases h
      · rename_i inside digits hcut
        obtain ⟨rfl, -⟩ := Text.cutLast?_eq_some_iff.1 hcut
        obtain ⟨rfl, hport⟩ := map_readPort_eq_ok_iff.1 h
        refine .bare ?_ hport
        intro hhead
        obtain ⟨rest, rfl⟩ := List.head?_eq_some_iff.1 hhead
        exact hopen _ rfl
  · intro h
    cases h with
    | @bracketed digits hhost hport =>
      rw [splitAddress, Text.cut?_eq_some_iff.2 ⟨rfl, hhost⟩]
      exact map_readPort_eq_ok_iff.2 ⟨rfl, hport⟩
    | @bare digits hhost hport =>
      have hcut : Text.cutLast? ':' (host ++ ':' :: digits) = some (host, digits) :=
        Text.cutLast?_eq_some_iff.2 ⟨rfl, hport.notMem (by decide) (by decide)⟩
      unfold splitAddress
      split
      · rename_i inner haddress
        cases host with
        | nil => exact absurd (List.cons.inj haddress).1 (by decide)
        | cons c host => exact absurd (congrArg some (List.cons.inj haddress).1) hhost
      · rw [hcut]
        exact map_readPort_eq_ok_iff.2 ⟨rfl, hport⟩

/-! ## Reading what was written -/

/-- An address is written with brackets around a host that has colons in it. -/
theorem toList_address (e : Endpoint) :
    e.address.toList =
      if ':' ∈ e.host.toList then '[' :: (e.host.toList ++ ']' :: ':' :: Nat.toDigits 10 e.port.toNat)
      else e.host.toList ++ ':' :: Nat.toDigits 10 e.port.toNat := by
  unfold address
  by_cases hcolon : ':' ∈ e.host.toList
  · simp [hcolon]
  · simp [hcolon]

/-- A digit of the port comes last. -/
theorem getLast?_address (e : Endpoint) : ∃ d, e.address.toList.getLast? = some d ∧ d.isDigit := by
  have hsome : Nat.toDigits 10 e.port.toNat ≠ [] := Nat.toDigits_ne_nil
  refine ⟨_, ?_, Nat.isDigit_of_mem_toDigits (by decide) (Nat.le_refl 10) (List.getLast_mem hsome)⟩
  rw [toList_address]
  split <;> simp [List.getLast?_append, List.getLast?_cons, List.getLast?_eq_some_getLast hsome]

/-- The reader takes off what the printer puts before an address. -/
theorem stripScheme_text (e : Endpoint) : stripScheme (Text.trim e.text.toList) = .ok e.address.toList := by
  obtain ⟨d, hlast, hdigit⟩ := e.getLast?_address
  have htext : e.text.toList = 't' :: 'c' :: 'p' :: ':' :: '/' :: '/' :: e.address.toList := by
    simp [text]
  have htrim : Text.trim e.text.toList = e.text.toList := by
    rw [htext]
    refine Text.trim_of_ends ?_ ?_
    · simp [show Text.isBlank 't' = false by decide]
    · have hends : e.address.toList ≠ [] := fun hnone => by simp [hnone] at hlast
      intro c hc
      simp only [List.getLast?_cons_of_ne_nil hends, List.getLast?_cons_cons, hlast, Option.mem_def, Option.some.injEq] at hc
      subst hc
      have hbounds := Text.isDigit_bounds hdigit
      simp [Text.isBlank]
      omega
  rw [htrim, htext]
  rfl

/-- What is written as the address of an endpoint tells its host unless there are brackets in the host itself. -/
theorem isAddress_address_iff (e : Endpoint) :
    IsAddress e.host.toList e.port e.address.toList ↔
      (':' ∈ e.host.toList → ']' ∉ e.host.toList) ∧ (':' ∉ e.host.toList → e.host.toList.head? ≠ some '[') := by
  have hdigits := Text.standsFor_toDigits e.port.toNat
  rw [toList_address]
  by_cases hcolon : ':' ∈ e.host.toList
  · rw [if_pos hcolon]
    constructor
    · intro h
      generalize haddress : '[' :: (e.host.toList ++ ']' :: ':' :: Nat.toDigits 10 e.port.toNat) = address at h
      cases h with
      | bracketed hhost => exact ⟨fun _ => hhost, fun hnone => absurd hcolon hnone⟩
      | bare hhost =>
        obtain ⟨c, rest, hsome⟩ := List.exists_cons_of_ne_nil (List.ne_nil_of_mem hcolon)
        rw [hsome] at haddress hhost
        exact absurd (congrArg some (List.cons.inj haddress).1.symm) hhost
    · rintro ⟨hhost, -⟩
      exact .bracketed (hhost hcolon) hdigits
  · rw [if_neg hcolon]
    constructor
    · intro h
      refine ⟨fun hmem => absurd hmem hcolon, fun _ => ?_⟩
      generalize haddress : e.host.toList ++ ':' :: Nat.toDigits 10 e.port.toNat = address at h
      cases h with
      | @bracketed digits hhost =>
        -- the first colon ends the host on the one side, and the host in brackets on the other
        have hbare : Text.cut? [':'] (e.host.toList ++ ':' :: Nat.toDigits 10 e.port.toNat) =
            some (e.host.toList, Nat.toDigits 10 e.port.toNat) := Text.cut?_eq_some_iff.2 ⟨rfl, hcolon⟩
        have hbracketed : Text.cut? [':'] ('[' :: (e.host.toList ++ ']' :: ':' :: digits)) =
            some ('[' :: (e.host.toList ++ [']']), digits) :=
          Text.cut?_eq_some_iff.2 ⟨by simp, by simp [hcolon]⟩
        rw [haddress, hbracketed, Option.some.injEq, Prod.mk.injEq] at hbare
        have hlength := congrArg List.length hbare.1
        simp only [List.length_cons, List.length_append] at hlength
        omega
      | bare hhost => exact hhost
    · rintro ⟨-, hhost⟩
      exact .bare (hhost hcolon) hdigits

/-- What is read of a written endpoint is read of its address: no host is none, and the star is every address. -/
theorem parse_text (e : Endpoint) :
    parse e.text = (splitAddress e.address.toList).bind fun parts =>
      if parts.1.isEmpty then .error (.missingHost e.text)
      else if parts.1 = ['*'] then .ok ⟨"0.0.0.0", parts.2⟩
      else .ok ⟨String.ofList parts.1, parts.2⟩ := by
  rw [parse, stripScheme_text]
  rfl

/-- An endpoint that is written and read back is the same again exactly if its host is none of these: nothing at all, the
star that stands for every address, one with a colon and a closing bracket in it, one without a colon that starts with an
opening bracket. -/
theorem parse_text_eq_ok_iff (e : Endpoint) :
    parse e.text = .ok e ↔
      e.host ≠ "" ∧ e.host ≠ "*" ∧ (':' ∈ e.host.toList → ']' ∉ e.host.toList) ∧
        (':' ∉ e.host.toList → e.host.toList.head? ≠ some '[') := by
  rw [← isAddress_address_iff]
  rw [parse_text]
  constructor
  · intro h
    cases hsplit : splitAddress e.address.toList with
    | error cause =>
      rw [hsplit] at h
      cases h
    | ok parts =>
      obtain ⟨host, port⟩ := parts
      rw [hsplit] at h
      simp only [Except.bind] at h
      split at h
      · cases h
      · rename_i hsome
        split at h
        · -- the star is read as another host, which is itself read as it is written
          have hwhole : "0.0.0.0" ≠ "" ∧ "0.0.0.0" ≠ "*" ∧ ':' ∉ "0.0.0.0".toList ∧ "0.0.0.0".toList.head? ≠ some '[' := by
            decide
          obtain ⟨hsome, hstar, hcolon, hopen⟩ := hwhole
          obtain rfl := Except.ok.inj h
          exact ⟨hsome, hstar, (isAddress_address_iff _).2 ⟨fun hmem => absurd hmem hcolon, fun _ => hopen⟩⟩
        · rename_i hstar
          have haddress := splitAddress_eq_ok_iff.1 hsplit
          obtain rfl := Except.ok.inj h
          refine ⟨fun hnone => hsome ?_, fun hsame => hstar (String.ofList_injective hsame), ?_⟩
          · rw [String.ofList_injective (hnone.trans String.ofList_nil.symm)]
            rfl
          · rwa [String.toList_ofList]
  · rintro ⟨hsome, hstar, haddress⟩
    rw [splitAddress_eq_ok_iff.2 haddress]
    have hstar' : e.host.toList ≠ ['*'] := fun hlist => hstar (String.toList_inj.1 hlist)
    simp [Except.bind, hsome, hstar']

/-- A host is read from these texts, but when they are written anew, it is not the same again. -/
example : (parse "a]:b:80").toOption = some ⟨"a]:b", 80⟩ ∧ (parse (text ⟨"a]:b", 80⟩)).toOption = none ∧
    (parse "[[x]:80").toOption = some ⟨"[x", 80⟩ ∧ (parse (text ⟨"[x", 80⟩)).toOption = none := by
  decide

end FrameMerge.Endpoint
