import VideoOverlay.Config.File
import VideoOverlay.Proofs.Toml.Lines

/-!
# `Proofs.Config.RoundTrip` — saved settings are loaded again

The document of all settings reads as seven lines, whatever the strings among them hold (`linesOf_document`),
and these lines make one table for programs and one for exports. So the document reads back as the settings it
was written for (`parse?_document`), and after saving, loading gives them back exactly if they are usable.

## Contents
- `Config.lines`, `linesOf_document`, `ofLines_lines`: the document, line by line.
- `parse?_document`: the document reads back.
- `load_of_save`: saving, then loading.
-/

namespace VideoOverlay
namespace Config

open Toml (Line LinesOf)

/-! ## The document, line by line -/

/-- The lines of the document of all settings. -/
def lines (c : Config) : List Line :=
  [.table ⟨[], "ffmpeg"⟩,
    .pair ⟨[], "binary"⟩ (.string c.programs.encoder),
    .pair ⟨[], "probe_binary"⟩ (.string c.programs.prober),
    .table ⟨[], "export"⟩,
    .pair ⟨[], "required_codec"⟩ (.string c.policy.requiredCodec),
    .pair ⟨[], "overwrite"⟩ (.scalar (.boolean c.policy.overwrite)),
    .pair ⟨[], "log_commands"⟩ (.scalar (.boolean c.policy.logCommands))]

/-- The table that these lines make. -/
def table (c : Config) : Toml.Entries :=
  [("ffmpeg", .table .header
      [("binary", .string c.programs.encoder), ("probe_binary", .string c.programs.prober)]),
    ("export", .table .header
      [("required_codec", .string c.policy.requiredCodec),
        ("overwrite", .scalar (.boolean c.policy.overwrite)),
        ("log_commands", .scalar (.boolean c.policy.logCommands))])]

theorem ofLines_lines (c : Config) : Toml.ofLines c.lines = some c.table := rfl

/-- A setting in front of other lines. -/
theorem linesOf_settingLine {value : String} {v : Toml.Value} {cs : List Char} {ls : List Line} (name : String)
    (hname : Toml.IsBare name.toList) (hvalue : Toml.ReadsAs value.toList v) (h : LinesOf cs ls) :
    LinesOf ((settingLine name value).toList ++ cs) (.pair ⟨[], name⟩ v :: ls) := by
  have hshape : (settingLine name value).toList ++ cs
      = name.toList ++ ' ' :: '=' :: ' ' :: (value.toList ++ '\n' :: cs) := by
    simp [settingLine]
  rw [hshape]
  exact h.pair name hname hvalue

/-- The characters of the document, line by line. -/
theorem toList_document (c : Config) :
    c.document.toList = '[' :: ("ffmpeg".toList ++ ']' :: '\n'
      :: ((settingLine "binary" (Toml.writeString c.programs.encoder)).toList
      ++ ((settingLine "probe_binary" (Toml.writeString c.programs.prober)).toList
      ++ '\n' :: '[' :: ("export".toList ++ ']' :: '\n'
      :: ((settingLine "required_codec" (Toml.writeString c.policy.requiredCodec)).toList
      ++ ((settingLine "overwrite" (Toml.writeBool c.policy.overwrite)).toList
      ++ (settingLine "log_commands" (Toml.writeBool c.policy.logCommands)).toList)))))) := by
  have hprograms : "[ffmpeg]\n".toList = '[' :: ("ffmpeg".toList ++ [']', '\n']) := by decide
  have hpolicy : "\n[export]\n".toList = '\n' :: '[' :: ("export".toList ++ [']', '\n']) := by decide
  simp only [document, String.toList_append, hprograms, hpolicy, List.cons_append, List.append_assoc,
    List.nil_append]

theorem linesOf_document (c : Config) : LinesOf c.document.toList c.lines := by
  have hpolicy := (LinesOf.done rfl : LinesOf [] [])
    |> linesOf_settingLine "log_commands" (by decide) (Toml.readsAs_writeBool c.policy.logCommands)
    |> linesOf_settingLine "overwrite" (by decide) (Toml.readsAs_writeBool c.policy.overwrite)
    |> linesOf_settingLine "required_codec" (by decide) (Toml.readsAs_writeString c.policy.requiredCodec)
    |> LinesOf.header "export" (by decide)
  have hall := hpolicy.empty_line
    |> linesOf_settingLine "probe_binary" (by decide) (Toml.readsAs_writeString c.programs.prober)
    |> linesOf_settingLine "binary" (by decide) (Toml.readsAs_writeString c.programs.encoder)
    |> LinesOf.header "ffmpeg" (by decide)
  rw [List.append_nil] at hall
  rw [toList_document]
  exact hall

/-! ## Reading the document -/

/-- The strings of the settings bring no carriage return into the document: it is escaped. -/
theorem return_not_mem_document (c : Config) : '\r' ∉ c.document.toList := by
  have hstring (s : String) : '\r' ∉ (Toml.writeString s).toList := by
    intro hmem
    rw [Toml.writeString, String.toList_ofList] at hmem
    cases Toml.of_mem_writeIn hmem
  have hbool (b : Bool) : '\r' ∉ (Toml.writeBool b).toList := by
    cases b <;> decide
  have hline (name : String) {value : String} (hname : '\r' ∉ name.toList) (hvalue : '\r' ∉ value.toList) :
      '\r' ∉ (settingLine name value).toList := by
    simp [settingLine, hname, hvalue]
  simp only [document, String.toList_append, List.mem_append, not_or, and_assoc]
  exact ⟨by decide, hline "binary" (by decide) (hstring _), hline "probe_binary" (by decide) (hstring _),
    by decide, hline "required_codec" (by decide) (hstring _), hline "overwrite" (by decide) (hbool _),
    hline "log_commands" (by decide) (hbool _)⟩

/-- **The document of all settings reads back as the settings**, usable or not. -/
theorem parse?_document (c : Config) : parse? c.document = some c := by
  have hlength : c.lines.length ≤ c.document.toList.length := by
    have hkey : "ffmpeg".toList.length = 6 := rfl
    rw [toList_document, List.length_cons, List.length_append, hkey]
    show 7 ≤ _
    omega
  have hmark : c.document.toList.head? ≠ some '\ufeff' := by
    rw [toList_document]
    exact fun h => absurd (Option.some.inj h) (by decide)
  have hdocument : Toml.parse? c.document = some c.table := by
    rw [Toml.parse?_of_linesOf c.linesOf_document hlength hmark c.return_not_mem_document, ofLines_lines]
  rw [parse?, hdocument]
  rfl

/-! ## Saving and loading -/

/-- **Settings that were saved are loaded as they were exactly if they are usable**, and otherwise loading says
what is wrong with them. -/
theorem load_of_save {c : Config} {files next : Files} {path : String} (h : c.save files path = .ok next) :
    (load next path = .ok c ↔ c.validate = .ok ()) ∧
      ∀ e, c.validate = .error e → load next path = .error (.config e) := by
  have hload : load next path = (c.validate.mapError .config).map fun _ => c := by
    rw [load_save h, parse?_document]
  rw [hload]
  cases c.validate with
  | ok => exact ⟨⟨fun _ => rfl, fun _ => rfl⟩, fun e he => nomatch he⟩
  | error problem =>
    refine ⟨⟨(nomatch ·), (nomatch ·)⟩, fun e he => ?_⟩
    cases he
    rfl

/-- Names with quotes, backslashes, line breaks and control characters, and a blank codec. -/
def oddSettings : Config where
  programs := ⟨"C:\\\"bin\"\\ff'''mpeg\"\"\"", "\n\"\"\"\"\"probe'\x00\r\n\t'\"\""⟩
  policy := ⟨"\n\t\r ", false, true⟩

/-- Such names survive; with a codec the settings are loaded, and without one they are refused. -/
theorem load_of_save_oddSettings :
    (∃ next, save { oddSettings with policy := {} } {} "odd.toml" = .ok next ∧
      load next "odd.toml" = .ok { oddSettings with policy := {} }) ∧
    ∃ next, save oddSettings {} "odd.toml" = .ok next ∧
      load next "odd.toml" = .error (.config (.invalidValue "export.required_codec" "\n\t\r ")) := by
  have hsave (c : Config) : ∃ next, save c {} "odd.toml" = .ok next := ⟨_, rfl⟩
  constructor
  · obtain ⟨next, hnext⟩ := hsave { oddSettings with policy := {} }
    exact ⟨next, hnext, (load_of_save hnext).1.mpr rfl⟩
  · obtain ⟨next, hnext⟩ := hsave oddSettings
    exact ⟨next, hnext, (load_of_save hnext).2 _ rfl⟩

end Config
end VideoOverlay
