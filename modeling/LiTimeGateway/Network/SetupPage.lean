import LiTimeGateway.JavaScript
import LiTimeGateway.Lib.Html
import LiTimeGateway.Network.SsidDocuments
/-!
# Network names in the setup page

`scan` of the page puts one option for each network into the markup of the SSID
select. In the `value` attribute the name is escaped, in the text it is not.
-/

namespace LiTimeGateway.SetupPage

open JavaScript Lib.Html

/-- An element of `result.networks`. -/
structure Network where
  ssid : Text
  rssi : ℤ
  secure : Bool

def attributeValue (ssid : Text) : Text := replaceAll (replaceAll ssid '&' (text "&amp;")) '"' (text "&quot;")

/-- The text of a network's option. -/
def optionText (network : Network) : Text :=
  network.ssid ++ text " (" ++ numberText network.rssi ++ text " dBm" ++
    (if network.secure then text ", secured" else text ", open") ++ text ")"

def networkOption (network : Network) : Text :=
  text "<option value=\"" ++ attributeValue network.ssid ++ text "\">" ++ optionText network ++ text "</option>"

/-- What `scan` assigns to `innerHTML`. -/
def scanMarkup (networks : List Network) : Text :=
  text "<option value=\"\">Choose a network</option>" ++ networks.flatMap networkOption

variable (references : CharacterReferences)

def setupOptions (networks : List Network) : List OptionElement :=
  optionElements references (tokens (scanMarkup networks)) none

/-- One option for nothing and one for each network, with its name as the value
and its own text, and no other tags. -/
structure Genuine (networks : List Network) : Prop where
  values : (setupOptions references networks).map OptionElement.value = [] :: networks.map Network.ssid
  texts : (setupOptions references networks).map OptionElement.text = text "Choose a network" :: networks.map optionText
  tags : tagStructure (tokens (scanMarkup networks)) = optionTags (networks.length + 1)

/-! ## The attribute -/

theorem attributeValue_cons (c : Char) (ssid : Text) :
    attributeValue (c :: ssid) =
      (if c = '&' then text "&amp;" else if c = '"' then text "&quot;" else [c]) ++ attributeValue ssid := by
  have hamp : replaceAll (text "&amp;") '"' (text "&quot;") = text "&amp;" := by decide +kernel
  have happend : ∀ s t, replaceAll (s ++ t) '"' (text "&quot;") =
      replaceAll s '"' (text "&quot;") ++ replaceAll t '"' (text "&quot;") := fun _ _ => List.flatMap_append
  have hcons : replaceAll (c :: ssid) '&' (text "&amp;") =
      (if c = '&' then text "&amp;" else [c]) ++ replaceAll ssid '&' (text "&amp;") := List.flatMap_cons
  rw [attributeValue, hcons, happend, attributeValue]
  congr 1
  by_cases hc : c = '&'
  · rw [if_pos hc, if_pos hc, hamp]
  · rw [if_neg hc, if_neg hc]
    exact List.flatMap_singleton _ _

/-- The attribute ends where the template ends it. -/
theorem quote_not_mem_attributeValue (ssid : Text) : '"' ∉ attributeValue ssid := by
  induction ssid with
  | nil => exact List.not_mem_nil
  | cons c ssid ih =>
    rw [attributeValue_cons, List.mem_append, not_or]
    refine ⟨?_, ih⟩
    split_ifs with hamp hquote
    · decide +kernel
    · decide +kernel
    · rw [List.mem_singleton]
      exact Ne.symm hquote

/-- Its value is the name. -/
theorem decode_attributeValue (ssid : Text) : decode references.inAttribute 0 (attributeValue ssid) = ssid := by
  have hamp : text "&amp;" = ['&', 'a', 'm', 'p', ';'] := by decide +kernel
  have hquot : text "&quot;" = ['&', 'q', 'u', 'o', 't', ';'] := by decide +kernel
  induction ssid with
  | nil => rfl
  | cons c ssid ih =>
    rw [attributeValue_cons]
    split_ifs with hc hq
    · rw [hamp, List.cons_append, decode, if_pos rfl]
      simp only [List.cons_append, List.nil_append, references.amp, decode, ih, hc]
    · rw [hquot, List.cons_append, decode, if_pos rfl]
      simp only [List.cons_append, List.nil_append, references.quot, decode, ih, hq]
    · rw [List.singleton_append, decode, if_neg hc, ih]

/-! ## The options -/

/-- The values and the texts as they stand in the markup. -/
def choices (networks : List Network) : List (Text × Text) :=
  ([], text "Choose a network") :: networks.map fun network => (attributeValue network.ssid, optionText network)

theorem optionMarkup_eq (value label : Text) :
    optionMarkup (value, label) = text "<option value=\"" ++ value ++ text "\">" ++ label ++ text "</option>" := by
  have hopening : text "<option value=\"" = '<' :: (optionName ++ ' ' :: (valueName ++ ['=', '"'])) := by decide +kernel
  have hbehind : text "\">" = ['"', '>'] := by decide +kernel
  have hclosing : text "</option>" = '<' :: '/' :: (optionName ++ ['>']) := by decide +kernel
  rw [hopening, hbehind, hclosing]
  simp [optionMarkup]

theorem scanMarkup_eq (networks : List Network) : scanMarkup networks = (choices networks).flatMap optionMarkup := by
  have hfirst : text "<option value=\"\">Choose a network</option>" = optionMarkup ([], text "Choose a network") := by
    decide +kernel
  rw [scanMarkup, hfirst, choices, List.flatMap_cons, List.flatMap_map]
  simp only [optionMarkup_eq]
  rfl

theorem quote_not_mem_choices (networks : List Network) : ∀ choice ∈ choices networks, '"' ∉ choice.1 := by
  rw [choices, List.forall_mem_cons]
  refine ⟨List.not_mem_nil, ?_⟩
  intro choice hchoice
  obtain ⟨network, -, rfl⟩ := List.mem_map.1 hchoice
  exact quote_not_mem_attributeValue network.ssid

theorem open_not_mem_numberText (n : ℤ) : '<' ∉ numberText n := by
  rw [numberText, List.mem_append, not_or]
  refine ⟨?_, fun h => absurd (isDigit_toDigits _ _ h) (by decide)⟩
  split <;> decide

/-- Only the name can open a tag. -/
theorem open_mem_optionText (network : Network) : '<' ∈ optionText network ↔ '<' ∈ network.ssid := by
  have hopening : '<' ∉ text " (" := by decide +kernel
  have hunit : '<' ∉ text " dBm" := by decide +kernel
  have hsecure : '<' ∉ (if network.secure then text ", secured" else text ", open") := by
    split <;> decide +kernel
  have hclosing : '<' ∉ text ")" := by decide +kernel
  simp only [optionText, List.mem_append, hopening, open_not_mem_numberText, hunit, hsecure, hclosing, or_false]

/-- The page offers the networks and nothing else exactly when no name has a `<`
and no option's text has an `&` that begins a character reference. -/
theorem options_genuine_iff (networks : List Network) :
    Genuine references networks ↔
      ∀ network ∈ networks, '<' ∉ network.ssid ∧ NoReference references.inText (optionText network) := by
  have hquotes := quote_not_mem_choices networks
  constructor
  · rintro ⟨-, htexts, htags⟩
    rw [setupOptions, scanMarkup_eq] at htexts
    rw [scanMarkup_eq] at htags
    have hsnd : (choices networks).map Prod.snd = text "Choose a network" :: networks.map optionText := by
      simp [choices]
    have hlength : (choices networks).length = networks.length + 1 := by simp [choices]
    have hplain := texts_plain references hquotes (htexts.trans hsnd.symm) (hlength.symm ▸ htags)
    intro network hnetwork
    have hmem : (attributeValue network.ssid, optionText network) ∈ choices networks :=
      List.mem_cons_of_mem _ (List.mem_map_of_mem hnetwork)
    obtain ⟨hopen, hreference⟩ := hplain _ hmem
    exact ⟨fun h => hopen ((open_mem_optionText network).2 h), hreference⟩
  · intro h
    have htexts : ∀ choice ∈ choices networks, '<' ∉ choice.2 ∧ NoReference references.inText choice.2 := by
      rw [choices, List.forall_mem_cons]
      refine ⟨⟨by decide +kernel, noReference_of_not_mem (by decide +kernel) _⟩, ?_⟩
      intro choice hchoice
      obtain ⟨network, hnetwork, rfl⟩ := List.mem_map.1 hchoice
      obtain ⟨hopen, hreference⟩ := h network hnetwork
      exact ⟨fun hmem => hopen ((open_mem_optionText network).1 hmem), hreference⟩
    obtain ⟨helements, htags⟩ := optionElements_choices references hquotes htexts
    have hoptions : setupOptions references networks = (choices networks).map (optionOf references) := by
      rw [setupOptions, scanMarkup_eq, helements]
    refine ⟨?_, ?_, ?_⟩
    · rw [hoptions]
      simp [choices, optionOf, OptionElement.value, decode_attributeValue, decode]
    · rw [hoptions]
      simp [choices, optionOf]
    · rw [scanMarkup_eq, htags]
      simp [choices]

/-! ## A forged choice -/

/-- A name as long as a name can be. -/
def hostileName : String := "x</option><option value=\"evil\">y"

def hostileNetwork : Network := ⟨text hostileName, -50, false⟩

/-- It comes through the scan document, and adds an option of its own. -/
theorem hostile_name_adds_option :
    GatewayNetwork.networkSsids (GatewayNetwork.scanJson (.complete [⟨ascii hostileName, -50, 0⟩])) =
        some [ascii hostileName] ∧
      (setupOptions basicReferences [hostileNetwork]).map OptionElement.value =
        [[], text hostileName, text "evil"] ∧
      ¬ ∃ references, Genuine references [hostileNetwork] := by
  refine ⟨by decide +kernel, by decide +kernel, ?_⟩
  rintro ⟨references, h⟩
  exact absurd h.tags (by decide +kernel)

end LiTimeGateway.SetupPage
