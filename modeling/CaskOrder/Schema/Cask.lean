import CaskOrder.Schema.Basic

/-!
# The schema of a cask

The built-in table lists the stanzas of a cask in canonical order.  The seventh group
holds the artifacts.
-/

namespace CaskOrder

def GroupTable.cask : GroupTable :=
  List.map (List.map Stanza.mk)
    [["arch", "on_arch_conditional"],
     ["version", "sha256"],
     ["language"],
     ["url", "appcast", "name", "desc", "homepage"],
     ["livecheck"],
     ["auto_updates", "conflicts_with", "depends_on", "container"],
     ["suite", "app", "pkg", "installer", "binary", "manpage", "colorpicker", "dictionary",
      "font", "input_method", "internet_plugin", "keyboard_layout", "prefpane", "qlplugin",
      "mdimporter", "screen_saver", "service", "audio_unit_plugin", "vst_plugin",
      "vst3_plugin", "artifact", "stage_only"],
     ["preflight"],
     ["postflight"],
     ["uninstall_preflight"],
     ["uninstall_postflight"],
     ["uninstall"],
     ["zap"],
     ["caveats"]]

theorem GroupTable.cask_sound : Defect.first? GroupTable.cask = none := by
  decide +kernel

def Schema.cask : Schema :=
  Schema.ofTable GroupTable.cask GroupTable.cask_sound

end CaskOrder
