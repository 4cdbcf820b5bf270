import PiFire.Settings.Item

/-!
# The settings as they ship

The tree of `settings.default.json`, group by group. Temperatures are in
Fahrenheit, like the units it names.
-/

namespace PiFire.Settings

open Item

namespace Shipped

def globals : Item :=
  object
    [("grill_name", text ""), ("units", text "F"), ("debug_mode", truth false),
     ("theme", text "dark"), ("show_recipes", truth true), ("probe_priority", truth true),
     ("augerrate", number (3 / 10)), ("first_time_setup", truth false),
     ("prime_ignition", truth false), ("boot_to_monitor", truth false)]

def platform : Item :=
  object
    [("current", text "pcb_pwm"), ("system_type", text "rpi"), ("real_hw", truth true),
     ("standalone", truth true), ("triggerlevel", text "HIGH"), ("buttonslevel", text "HIGH"),
     ("dc_fan", truth true), ("gpiochip", text "/dev/gpiochip0"),
     ("outputs", object
       [("auger", number 14), ("dc_fan", number 26), ("fan", number 15), ("igniter", number 18),
        ("power", number 4), ("pwm", number 13)]),
     ("inputs", object [("selector", number 17), ("shutdown", node .null [])]),
     ("devices", object
       [("display", object [("dc", number 24), ("led", number 5), ("rst", number 25)]),
        ("distance", object [("echo", number 27), ("trig", number 23)]),
        ("input", object
          [("down_dt", number 20), ("enter_sw", number 21), ("up_clk", number 16)])]),
     ("system", object
       [("SPI0", object [("CE0", number 8), ("CE1", number 7)]), ("1WIRE", node .null [])])]

def modules : Item :=
  object [("grillplat", text "rpi"), ("display", text "ili9341e"), ("dist", text "vl53l0x")]

def display : Item :=
  object
    [("rotation", number 270), ("spi_device", number 0), ("spi_hz", number 32000000),
     ("backlight_timeout_s", number 5), ("theme", text "dark"), ("bgr", truth true),
     ("margin_right", number 16), ("margin_left", number 0), ("margin_bottom", number 0),
     ("margin_top", number 0)]

def distance : Item :=
  object [("i2c_bus_addr", text "0x29")]

def cycleData : Item :=
  object
    [("HoldCycleTime", number 25), ("SmokeOnCycleTime", number 15),
     ("SmokeOffCycleTime", number 45), ("PMode", number 2), ("u_min", number (1 / 10)),
     ("u_max", number (9 / 10)), ("LidOpenDetectEnabled", truth false),
     ("LidOpenThreshold", number 15), ("LidOpenPauseTime", number 60),
     ("LidOpenResumeRise", number 10), ("FanPidEnabled", truth false)]

def controller : Item :=
  object
    [("selected", text "adaptive"),
     ("config", object
       [("pid", object
         [("PB", number 60), ("Ti", number 180), ("Td", number 45), ("center", number (1 / 2))]),
        ("adaptive", object
          [("PB", number 60), ("Ti", number 180), ("Td", number 45), ("ff_gain", number 1)])])]

def safety : Item :=
  object
    [("maxtemp", number 650), ("min_target", number 160), ("max_target", number 550),
     ("smoke_min", number 180), ("reigniteretries", number 1),
     ("allow_manual_changes", truth false), ("manual_override_time", number 30),
     ("igniter_max_on_s", number 300), ("auger_max_on_s", number 60), ("probe_fault_s", number 10),
     ("error_cooldown_fan_s", number 300), ("restart_hot_temp", number 150),
     ("power_loss", object [("recovery", truth true), ("max_s", number 300)]),
     ("relight_enabled", truth true), ("relight_drop", number 20), ("relight_confirm_s", number 60),
     ("relight_prove_s", number 180)]

def startup : Item :=
  object
    [("smartstart", object
      [("prove_s", number 300), ("prove_rise", number 3), ("exit_rise", number 12),
       ("temp_range_list", array [number 60, number 80, number 90]),
       ("profiles", array
         [object [("augerontime", number 15), ("p_mode", number 0)],
          object [("augerontime", number 15), ("p_mode", number 1)],
          object [("augerontime", number 15), ("p_mode", number 3)],
          object [("augerontime", number 15), ("p_mode", number 5)]])]),
     ("prime_on_startup", number 0),
     ("start_to_mode", object
       [("after_startup_mode", text "Hold"), ("primary_setpoint", number 350),
        ("start_to_hold_prompt", truth true), ("ask", truth true)]),
     ("pwm_duty_cycle", number 100)]

def shutdown : Item :=
  object [("shutdown_duration", number 240), ("auto_power_off", truth false)]

def keepWarm : Item :=
  object [("temp", number 165), ("s_plus", truth false)]

def smokePlus : Item :=
  object
    [("enabled", truth false), ("max_temp", number 220), ("on_time", number 5),
     ("off_time", number 5), ("duty_cycle", number 75), ("fan_ramp", truth false)]

def pwm : Item :=
  object
    [("pwm_control", truth false), ("update_time", number 10), ("frequency", number 25000),
     ("min_duty_cycle", number 20), ("max_duty_cycle", number 100),
     ("temp_range_list", array [number 3, number 7, number 10, number 15]),
     ("profiles", array
       [object [("duty_cycle", number 20)], object [("duty_cycle", number 35)],
        object [("duty_cycle", number 50)], object [("duty_cycle", number 75)],
        object [("duty_cycle", number 100)]])]

def pelletlevel : Item :=
  object [("empty", number 22), ("full", number 4)]

def probeProfiles : Item :=
  object
    [("ET73-HM", object
      [("id", text "ET73-HM"), ("name", text "ET-73-Heatermeter"),
       ("A", number (24723753 / 100000000000)), ("B", number (23402251 / 100000000000)),
       ("C", number (1734971 / 12500000000000))]),
     ("ET73-SP", object
       [("id", text "ET73-SP"), ("name", text "ET-73-skyeperry1"),
        ("A", number (11533717 / 50000000000)), ("B", number (5924149 / 25000000000)),
        ("C", number (6318207 / 50000000000000))]),
     ("PT-1000-OEM", object
       [("id", text "PT-1000-OEM"), ("name", text "PT-1000-Grill-Probe-OEM"),
        ("A", number (517113307 / 12500000000)), ("B", number (-677987613 / 100000000000)),
        ("C", number (2760294589 / 100000000000000))]),
     ("PT-1000-PiFire", object
       [("id", text "PT-1000-PiFire"), ("name", text "PT-1000-Grill-Probe-PiFire"),
        ("A", number (2734952948672603 / 50000000000000000)),
        ("B", number (-9473055040089443 / 1000000000000000000)),
        ("C", number (21884280351928693 / 500000000000000000000))]),
     ("TWPS00", object
       [("id", text "TWPS00"), ("name", text "Thermoworks-Pro-Series-HeaterMeter"),
        ("A", number (73431401 / 100000000000)), ("B", number (2157437 / 10000000000)),
        ("C", number (4757843 / 50000000000000))]),
     ("iGrill-HM", object
       [("id", text "iGrill-HM"), ("name", text "iGrill-Heatermeter"),
        ("A", number (7739251279 / 10000000000000)), ("B", number (2088025997 / 10000000000000)),
        ("C", number (577200219 / 5000000000000000))]),
     ("PT-1000-OEM-2023", object
       [("id", text "PT-1000-OEM-2023"), ("name", text "PT-1000-OEM-2023"),
        ("A", number (2087389877478343 / 25000000000000000)),
        ("B", number (-3083442997892389 / 200000000000000000)),
        ("C", number (202505137251327 / 2500000000000000000))]),
     ("PT-1000-Ideal", object
       [("id", text "PT-1000-Ideal"), ("name", text "PT-1000-Ideal"),
        ("A", number (5966017913127897 / 100000000000000000)),
        ("B", number (-1048654943772497 / 100000000000000000)),
        ("C", number (4987389532180097 / 100000000000000000000))])]

def probeMap : Item :=
  object
    [("probe_devices", array
      [object
        [("device", text "ADS1115"), ("module", text "ads1x15"),
         ("ports", array [text "ADC0", text "ADC1", text "ADC2", text "ADC3"]),
         ("config", object
           [("variant", text "ads1115"), ("ADC0_rd", number 1000), ("ADC1_rd", number 10000),
            ("ADC2_rd", number 10000), ("ADC3_rd", number 10000), ("i2c_bus_addr", text "0x48"),
            ("voltage_ref", number (82 / 25)), ("transient", truth false)])]]),
     ("probe_info", array
       [object
         [("type", text "Primary"), ("label", text "Grill"), ("name", text "Grill"),
          ("profile", text "PT-1000-OEM"), ("device", text "ADS1115"), ("port", text "ADC0"),
          ("enabled", truth true), ("show_on_home", truth true)],
        object
          [("type", text "Food"), ("label", text "Probe1"), ("name", text "Probe-1"),
           ("profile", text "TWPS00"), ("device", text "ADS1115"), ("port", text "ADC1"),
           ("enabled", truth false), ("show_on_home", truth true)],
        object
          [("type", text "Food"), ("label", text "Probe2"), ("name", text "Probe-2"),
           ("profile", text "TWPS00"), ("device", text "ADS1115"), ("port", text "ADC2"),
           ("enabled", truth false), ("show_on_home", truth true)],
        object
          [("type", text "Food"), ("label", text "Probe3"), ("name", text "Probe-3"),
           ("profile", text "TWPS00"), ("device", text "ADS1115"), ("port", text "ADC3"),
           ("enabled", truth false), ("show_on_home", truth true)]])]

def probeSettings : Item :=
  object [("probe_profiles", probeProfiles), ("probe_map", probeMap)]

def mqtt : Item :=
  object
    [("enabled", truth false), ("broker", text "homeassistant.local"), ("port", number 1883),
     ("username", text ""), ("password", text ""), ("id", text "PiFire"),
     ("homeassistant_autodiscovery_topic", text "homeassistant"), ("update_sec", number 30)]

def webhook : Item :=
  object [("enabled", truth false), ("url", text ""), ("events", array [text "*"])]

def pushover : Item :=
  object
    [("enabled", truth false), ("user_key", text ""), ("app_token", text ""),
     ("priority", number 0), ("alarm_priority", number 1), ("sound", text ""),
     ("targets", truth true), ("alarms", truth true), ("pellets", truth true),
     ("tuning", truth true), ("system", truth false)]

def ntfy : Item :=
  object
    [("enabled", truth false), ("server", text "https://ntfy.sh"), ("topic", text ""),
     ("token", text ""), ("priority", number 3), ("alarm_priority", number 5),
     ("targets", truth true), ("alarms", truth true), ("pellets", truth true),
     ("tuning", truth true), ("system", truth false)]

def webpush : Item :=
  object
    [("enabled", truth true), ("contact", text ""), ("targets", truth true), ("alarms", truth true),
     ("pellets", truth true), ("tuning", truth true), ("system", truth false)]

def ruleProbeTarget : Item :=
  object
    [("id", text "probe-target"), ("name", text "Remove from Heat"), ("enabled", truth true),
     ("select", object
       [("domain", text "probe"), ("role", text "Food"), ("link", text "any"),
        ("match", text "any"), ("include", array []), ("exclude", array [])]),
     ("when", object
       [("op", text "all"),
        ("conditions", array
          [object [("trait", text "in_use"), ("op", text "is_on")],
           object [("trait", text "target"), ("op", text ">"), ("value", number 0)],
           object
             [("trait", text "temp"), ("op", text ">="),
              ("value", object [("trait", text "target")])]])]),
     ("title", text "\x7bprobe\x7d: Remove from Heat"),
     ("body", text "\x7bfood\x7d · \x7btemp\x7d\x7brest\x7d"), ("level", text "high"),
     ("sinks", array [text "app", text "webpush", text "pushover", text "ntfy"]),
     ("cooldown_s", number 600), ("repeat_s", number 0), ("for_s", number 0),
     ("only_while_cooking", truth true)]

def ruleProbeEta : Item :=
  object
    [("id", text "probe-eta"), ("name", text "Almost There"), ("enabled", truth true),
     ("select", object
       [("domain", text "probe"), ("role", text "Food"), ("link", text "any"),
        ("match", text "any"), ("include", array []), ("exclude", array [])]),
     ("when", object
       [("op", text "all"),
        ("conditions", array
          [object [("trait", text "in_use"), ("op", text "is_on")],
           object [("trait", text "target"), ("op", text ">"), ("value", number 0)],
           object
             [("trait", text "temp"), ("op", text "<"),
              ("value", object [("trait", text "target")])],
           object [("trait", text "eta"), ("op", text ">"), ("value", number 0)],
           object
             [("trait", text "eta"), ("op", text "<="), ("value", number 900),
              ("_note", text "seconds")]])]),
     ("title", text "\x7bprobe\x7d: Almost There"),
     ("body", text "\x7btemp\x7d · \x7beta\x7d to \x7btarget\x7d"), ("level", text "normal"),
     ("sinks", array [text "app", text "webpush", text "pushover", text "ntfy"]),
     ("cooldown_s", number 1800), ("repeat_s", number 0), ("for_s", number 40),
     ("only_while_cooking", truth true)]

def ruleProbeOffline : Item :=
  object
    [("id", text "probe-offline"), ("name", text "Probe Offline"), ("enabled", truth true),
     ("select", object
       [("domain", text "probe"), ("role", text "any"), ("link", text "bluetooth"),
        ("match", text "any"), ("include", array []), ("exclude", array [])]),
     ("when", object
       [("op", text "all"),
        ("conditions", array
          [object [("trait", text "in_use"), ("op", text "is_on")],
           object [("trait", text "connected"), ("op", text "is_off")]])]),
     ("title", text "\x7bprobe\x7d: Offline"), ("body", text "No signal. Check battery and range."),
     ("level", text "high"),
     ("sinks", array [text "app", text "webpush", text "pushover", text "ntfy"]),
     ("cooldown_s", number 900), ("repeat_s", number 0), ("for_s", number 60),
     ("only_while_cooking", truth true)]

def ruleProbeBattery : Item :=
  object
    [("id", text "probe-battery"), ("name", text "Probe Battery Low"), ("enabled", truth true),
     ("select", object
       [("domain", text "probe"), ("role", text "any"), ("link", text "bluetooth"),
        ("match", text "any"), ("include", array []), ("exclude", array [])]),
     ("when", object
       [("op", text "all"),
        ("conditions", array
          [object [("trait", text "in_use"), ("op", text "is_on")],
           object [("trait", text "battery"), ("op", text ">"), ("value", number 0)],
           object [("trait", text "battery"), ("op", text "<"), ("value", number 20)]])]),
     ("title", text "\x7bprobe\x7d: Battery \x7bbattery\x7d"),
     ("body", text "Charge before next cook."), ("level", text "info"),
     ("sinks", array [text "app", text "webpush", text "pushover"]), ("cooldown_s", number 21600),
     ("repeat_s", number 0), ("for_s", number 10), ("only_while_cooking", truth true)]

def ruleGrillHeating : Item :=
  object
    [("id", text "grill-heating"), ("name", text "Heating"), ("enabled", truth true),
     ("select", object [("domain", text "grill"), ("match", text "any")]),
     ("when", object
       [("op", text "all"),
        ("conditions", array
          [object [("entity", text "grill"), ("trait", text "heating"), ("op", text "is_on")]])]),
     ("title", text "\x7bgrill\x7d: \x7bmode\x7d"), ("body", text "\x7bheating_to\x7d"),
     ("level", text "normal"),
     ("sinks", array [text "app", text "webpush", text "pushover", text "ntfy"]),
     ("for_s", number 0), ("cooldown_s", number 0), ("repeat_s", number 0),
     ("only_while_cooking", truth true)]

def ruleGrillAtTemp : Item :=
  object
    [("id", text "grill-at-temp"), ("name", text "At Temperature"), ("enabled", truth true),
     ("select", object [("domain", text "grill"), ("match", text "any")]),
     ("when", object
       [("op", text "any"),
        ("conditions", array
          [object
            [("op", text "all"),
             ("conditions", array
               [object
                 [("entity", text "grill"), ("trait", text "mode"), ("op", text "is"),
                  ("value", text "Hold")],
                object
                  [("entity", text "grill"), ("trait", text "over"), ("op", text "within"),
                   ("value", number 0), ("value2", number 15)]])],
           object
             [("op", text "all"),
              ("conditions", array
                [object
                  [("entity", text "grill"), ("trait", text "mode"), ("op", text "is"),
                   ("value", text "Smoke")],
                 object
                   [("entity", text "grill"), ("trait", text "temp"), ("op", text "between"),
                    ("value", number 180), ("value2", number 230)]])]])]),
     ("title", text "\x7bgrill\x7d: At Temperature"), ("body", text "Pit \x7bgrill_temp\x7d"),
     ("level", text "normal"),
     ("sinks", array [text "app", text "webpush", text "pushover", text "ntfy"]),
     ("for_s", number 180), ("cooldown_s", number 1800), ("repeat_s", number 0),
     ("only_while_cooking", truth true)]

def ruleGrillHot : Item :=
  object
    [("id", text "grill-hot"), ("name", text "Above Set Point"), ("enabled", truth true),
     ("select", object [("domain", text "grill"), ("match", text "any")]),
     ("when", object
       [("op", text "all"),
        ("conditions", array
          [object
            [("entity", text "grill"), ("trait", text "mode"), ("op", text "is"),
             ("value", text "Hold")],
           object
             [("entity", text "grill"), ("trait", text "over"), ("op", text ">"),
              ("value", number 20)],
           object
             [("entity", text "grill"), ("trait", text "aiming_s"), ("op", text ">"),
              ("value", number 1200)]])]),
     ("title", text "\x7bgrill\x7d: Above Set Point"),
     ("body", text "Pit \x7bgrill_temp\x7d · Set \x7bsetpoint\x7d · 20 min"),
     ("level", text "high"),
     ("sinks", array [text "app", text "webpush", text "pushover", text "ntfy"]),
     ("for_s", number 120), ("cooldown_s", number 900), ("repeat_s", number 0),
     ("only_while_cooking", truth true), ("deadband", number 3)]

def ruleGrillCold : Item :=
  object
    [("id", text "grill-cold"), ("name", text "Below Set Point"), ("enabled", truth true),
     ("select", object [("domain", text "grill"), ("match", text "any")]),
     ("when", object
       [("op", text "all"),
        ("conditions", array
          [object
            [("entity", text "grill"), ("trait", text "mode"), ("op", text "is"),
             ("value", text "Hold")],
           object
             [("entity", text "grill"), ("trait", text "over"), ("op", text "<"),
              ("value", number (-20))],
           object
             [("entity", text "grill"), ("trait", text "aiming_s"), ("op", text ">"),
              ("value", number 1200)]])]),
     ("title", text "\x7bgrill\x7d: Below Set Point"),
     ("body", text "Pit \x7bgrill_temp\x7d · Set \x7bsetpoint\x7d · 20 min. Check fire and hopper."),
     ("level", text "high"),
     ("sinks", array [text "app", text "webpush", text "pushover", text "ntfy"]),
     ("for_s", number 120), ("cooldown_s", number 900), ("repeat_s", number 0),
     ("only_while_cooking", truth true), ("deadband", number 3)]

def ruleHopperLow : Item :=
  object
    [("id", text "hopper-low"), ("name", text "Hopper Low"), ("enabled", truth true),
     ("select", object [("domain", text "hopper"), ("match", text "any")]),
     ("when", object
       [("op", text "all"),
        ("conditions", array
          [object [("trait", text "level"), ("op", text "<"), ("value", number 20)]])]),
     ("title", text "\x7bgrill\x7d: Hopper Low"), ("body", text "Hopper \x7bhopper\x7d. Refill."),
     ("level", text "normal"),
     ("sinks", array [text "app", text "webpush", text "pushover", text "ntfy"]),
     ("for_s", number 30), ("cooldown_s", number 1800), ("repeat_s", number 0),
     ("only_while_cooking", truth true), ("deadband", number 5)]

def ruleHopperCritical : Item :=
  object
    [("id", text "hopper-critical"), ("name", text "Hopper Critical"), ("enabled", truth true),
     ("select", object [("domain", text "hopper"), ("match", text "any")]),
     ("when", object
       [("op", text "all"),
        ("conditions", array
          [object [("trait", text "level"), ("op", text "<"), ("value", number 10)]])]),
     ("title", text "\x7bgrill\x7d: Hopper Critical"),
     ("body", text "Hopper \x7bhopper\x7d. Refill now."), ("level", text "critical"),
     ("sinks", array [text "app", text "webpush", text "pushover", text "ntfy"]),
     ("for_s", number 30), ("cooldown_s", number 600), ("repeat_s", number 900),
     ("only_while_cooking", truth true), ("deadband", number 4),
     ("supersedes", array [text "hopper-low"])]

def ruleGrillEmergency : Item :=
  object
    [("id", text "grill-emergency"), ("name", text "Emergency Shutdown"), ("enabled", truth true),
     ("select", object [("domain", text "grill"), ("match", text "any")]),
     ("when", object
       [("op", text "any"),
        ("conditions", array
          [object
            [("entity", text "grill"), ("trait", text "error"), ("op", text "is"),
             ("value", text "E01_OVERTEMP")]])]),
     ("title", text "\x7bgrill\x7d: Emergency Shutdown"),
     ("body", text "Over temperature at \x7bgrill_temp\x7d. Fire out, fan cooling."),
     ("level", text "critical"),
     ("sinks", array [text "app", text "webpush", text "pushover", text "ntfy"]),
     ("for_s", number 0), ("cooldown_s", number 0), ("repeat_s", number 0),
     ("only_while_cooking", truth false), ("deadband", number 0)]

def ruleGrillFlameout : Item :=
  object
    [("id", text "grill-flameout"), ("name", text "Flame Out"), ("enabled", truth true),
     ("select", object [("domain", text "grill"), ("match", text "any")]),
     ("when", object
       [("op", text "all"),
        ("conditions", array
          [object
            [("entity", text "grill"), ("trait", text "mode"), ("op", text "is"),
             ("value", text "Hold")],
           object
             [("entity", text "grill"), ("trait", text "over"), ("op", text "<"),
              ("value", number (-50))],
           object
             [("entity", text "grill"), ("trait", text "aiming_s"), ("op", text ">"),
              ("value", number 1200)]])]),
     ("title", text "\x7bgrill\x7d: Flame Out"),
     ("body", text "Pit \x7bgrill_temp\x7d · Set \x7bsetpoint\x7d"), ("level", text "critical"),
     ("sinks", array [text "app", text "webpush", text "pushover", text "ntfy"]),
     ("for_s", number 120), ("cooldown_s", number 600), ("repeat_s", number 0),
     ("only_while_cooking", truth true), ("deadband", number 3)]

def ruleGrillRelight : Item :=
  object
    [("id", text "grill-relight"), ("name", text "Relight"), ("enabled", truth true),
     ("select", object [("domain", text "grill"), ("match", text "any")]),
     ("when", object
       [("op", text "all"),
        ("conditions", array
          [object
            [("entity", text "grill"), ("trait", text "mode"), ("op", text "is"),
             ("value", text "Relight")]])]),
     ("title", text "\x7bgrill\x7d: Relight"),
     ("body", text "Flame lost at \x7bgrill_temp\x7d. Relighting."), ("level", text "high"),
     ("sinks", array [text "app", text "webpush", text "pushover", text "ntfy"]),
     ("for_s", number 0), ("cooldown_s", number 0), ("repeat_s", number 0),
     ("only_while_cooking", truth true)]

def ruleProbeStepSoon : Item :=
  object
    [("id", text "probe-step-soon"), ("name", text "Step Next"), ("enabled", truth true),
     ("select", object
       [("domain", text "probe"), ("role", text "Food"), ("link", text "any"),
        ("match", text "any"), ("include", array []), ("exclude", array [])]),
     ("when", object
       [("op", text "all"),
        ("conditions", array
          [object [("trait", text "in_use"), ("op", text "is_on")],
           object [("trait", text "next_step"), ("op", text "not_empty")],
           object [("trait", text "eta_step"), ("op", text ">"), ("value", number 0)],
           object
             [("trait", text "eta_step"), ("op", text "<="), ("value", number 60),
              ("_note", text "seconds")]])]),
     ("title", text "\x7bprobe\x7d: \x7bstep\x7d in 1 min"), ("body", text "\x7btemp\x7d"),
     ("level", text "high"), ("sinks", array [text "app", text "webpush"]),
     ("cooldown_s", number 600), ("only_while_cooking", truth true)]

def ruleUpdateAvailable : Item :=
  object
    [("id", text "update-available"), ("name", text "PiFire Update"), ("enabled", truth true),
     ("select", object [("domain", text "system"), ("match", text "any")]),
     ("when", object
       [("op", text "all"),
        ("conditions", array
          [object
            [("entity", text "system"), ("trait", text "update_available"),
             ("op", text "is_on")]])]),
     ("title", text "PiFire \x7bupdate_version\x7d Available"),
     ("body", text "Settings › Software Updates"), ("level", text "info"),
     ("sinks", array [text "app", text "webpush", text "pushover", text "ntfy"]),
     ("for_s", number 0), ("cooldown_s", number 0), ("repeat_s", number 0),
     ("only_while_cooking", truth false)]

def ruleSystemUpdates : Item :=
  object
    [("id", text "system-updates"), ("name", text "System Updates"), ("enabled", truth true),
     ("select", object [("domain", text "system"), ("match", text "any")]),
     ("when", object
       [("op", text "all"),
        ("conditions", array
          [object
            [("entity", text "system"), ("trait", text "system_updates"), ("op", text ">"),
             ("value", number 0)]])]),
     ("title", text "\x7bsystem_updates\x7d System Updates"),
     ("body", text "Settings › Software Updates"), ("level", text "info"),
     ("sinks", array [text "app", text "webpush", text "pushover", text "ntfy"]),
     ("for_s", number 0), ("cooldown_s", number 0), ("repeat_s", number 0),
     ("only_while_cooking", truth false)]

def ruleBackupDone : Item :=
  object
    [("id", text "backup-done"), ("name", text "Backup Complete"), ("enabled", truth false),
     ("select", object [("domain", text "system"), ("match", text "any")]),
     ("when", object
       [("op", text "all"),
        ("conditions", array
          [object
            [("entity", text "system"), ("trait", text "backup_done"), ("op", text "is_on")]])]),
     ("title", text "Backup Complete"), ("body", text ""), ("level", text "info"),
     ("sinks", array [text "app", text "webpush", text "pushover", text "ntfy"]),
     ("for_s", number 0), ("cooldown_s", number 0), ("repeat_s", number 0),
     ("only_while_cooking", truth false)]

def ruleBackupFailed : Item :=
  object
    [("id", text "backup-failed"), ("name", text "Backup Failed"), ("enabled", truth true),
     ("select", object [("domain", text "system"), ("match", text "any")]),
     ("when", object
       [("op", text "all"),
        ("conditions", array
          [object
            [("entity", text "system"), ("trait", text "backup_failed"), ("op", text "is_on")]])]),
     ("title", text "Backup Failed"), ("body", text "Settings › Backup"), ("level", text "high"),
     ("sinks", array [text "app", text "webpush", text "pushover", text "ntfy"]),
     ("for_s", number 0), ("cooldown_s", number 0), ("repeat_s", number 0),
     ("only_while_cooking", truth false)]

def ruleGrillRestarted : Item :=
  object
    [("id", text "grill-restarted"), ("name", text "Grill Restarted"), ("enabled", truth true),
     ("select", object [("domain", text "system"), ("match", text "any")]),
     ("when", object
       [("op", text "all"),
        ("conditions", array
          [object
            [("entity", text "system"), ("trait", text "restarted"), ("op", text "is_on")]])]),
     ("title", text "\x7bgrill\x7d: Restarted"),
     ("body", text "\x7brestart_reason\x7d\x7brestart_resuming\x7d"), ("level", text "high"),
     ("sinks", array [text "app", text "webpush", text "pushover", text "ntfy"]),
     ("for_s", number 0), ("cooldown_s", number 0), ("repeat_s", number 0),
     ("only_while_cooking", truth false)]

/-- The built-in notification rules. -/
def rules : Item :=
  array [ruleProbeTarget, ruleProbeEta, ruleProbeOffline, ruleProbeBattery, ruleGrillHeating,
    ruleGrillAtTemp, ruleGrillHot, ruleGrillCold, ruleHopperLow, ruleHopperCritical,
    ruleGrillEmergency, ruleGrillFlameout, ruleGrillRelight, ruleProbeStepSoon, ruleUpdateAvailable,
    ruleSystemUpdates, ruleBackupDone, ruleBackupFailed, ruleGrillRestarted]

def probeSteps : Item :=
  object []

def notify : Item :=
  object
    [("mqtt", mqtt),
     ("webhook", webhook),
     ("pushover", pushover),
     ("ntfy", ntfy),
     ("webpush", webpush),
     ("eta_warn_min", number 15),
     ("rest_margin", number 2),
     ("rules", rules),
     ("probe_steps", probeSteps)]

def weather : Item :=
  object
    [("enabled", truth false), ("country", text "us"), ("postal_code", text ""), ("place", text ""),
     ("latitude", number 0), ("longitude", number 0)]

def network : Item :=
  object
    [("tailscale_hostname", text "pifire"), ("tailscale_https", truth false),
     ("cloudflare_enabled", truth false), ("cloudflare_team", text ""), ("cloudflare_aud", text ""),
     ("cloudflare_hostname", text ""), ("hotspot_ssid", text ""),
     ("hotspot_password", text "pifire1234"), ("force_setup", truth false),
     ("setup_timeout_s", number 45)]

def learning : Item :=
  object
    [("enabled", truth true), ("half_life_obs", number 60), ("use_library", truth true),
     ("tune_setpoints", array [number 250, number 350]), ("tune_baseline", number 250)]

def update : Item :=
  object
    [("repo", text "dogtreatfairy/pifire-c"), ("auto_check", truth true),
     ("check_interval_h", number 24), ("include_prerelease", truth true),
     ("hot_update", truth false), ("auto_install", truth false), ("branch", text "main"),
     ("auto_install_time", text "02:00"),
     ("auto_install_days", array
       [number 0, number 1, number 2, number 3, number 4, number 5, number 6]),
     ("auto_install_system", truth false), ("ignored", text ""), ("show_in_header", truth true)]

def history : Item :=
  object
    [("minutes", number 15), ("clear_on_startup", truth true), ("retention_hours", number 48),
     ("sample_s", number 3)]

def web : Item :=
  object [("port", number 80), ("bind", text "0.0.0.0")]

def backup : Item :=
  object
    [("schedule", text "weekly"), ("hour", number 3), ("weekday", number 0), ("monthday", number 1),
     ("keep", number 8), ("locations", array [])]

end Shipped

open Shipped in
/-- The tree every settings file is filled up from. -/
def defaults : Item :=
  object
    [("schema_version", number 30),
     ("globals", globals),
     ("platform", platform),
     ("modules", modules),
     ("display", display),
     ("distance", distance),
     ("cycle_data", cycleData),
     ("controller", controller),
     ("safety", safety),
     ("startup", startup),
     ("shutdown", shutdown),
     ("keep_warm", keepWarm),
     ("smoke_plus", smokePlus),
     ("pwm", pwm),
     ("pelletlevel", pelletlevel),
     ("probe_settings", probeSettings),
     ("notify", notify),
     ("weather", weather),
     ("network", network),
     ("learning", learning),
     ("update", update),
     ("history", history),
     ("web", web),
     ("backup", backup)]

end PiFire.Settings
