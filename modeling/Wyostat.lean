import Wyostat.Lib.Run
import Wyostat.Lib.Reading
import Wyostat.Lib.Output
import Wyostat.Lib.Replica
import Wyostat.Lib.Decimal
import Wyostat.Lib.Loopback
import Wyostat.Lib.Delimited
import Wyostat.Lib.Throttle
import Wyostat.Lib.Cascade
import Wyostat.Lib.Indicator
import Wyostat.Lib.Script
import Wyostat.Lib.Varint
import Wyostat.Lib.KeepAlive
import Wyostat.Lib.Raster
import Wyostat.Device
import Wyostat.WString
import Wyostat.PubSubClient.Bounds
import Wyostat.PubSubClient.Session
import Wyostat.OpenThermostat.Interlock
import Wyostat.OpenThermostat.Sampling
import Wyostat.OpenThermostat.AirFlow
import Wyostat.OpenThermostat.Dwell
import Wyostat.OpenThermostat.Echo
import Wyostat.OpenThermostat.Schedule
import Wyostat.OpenThermostat.Reboot
import Wyostat.OpenThermostat.Telemetry
import Wyostat.OpenThermostat.ModeBuffer
import Wyostat.OpenThermostat.Hysteresis
import Wyostat.OpenThermostat.Estimate
import Wyostat.OpenThermostat.Modes
import Wyostat.OpenThermostat.Slots
import Wyostat.OpenThermostat.Dashboard
import Wyostat.OpenThermostat.JsonLookup
import Wyostat.OpenThermostat.LocalTime
import Wyostat.OpenThermostat.Numbers
import Wyostat.OpenThermostat.TimedReport
import Wyostat.OpenThermostat.Quiescence
import Wyostat.OpenThermostat.Screen
import Wyostat.ThermostatDial
import Wyostat.ThermoCentral.FanDemand
import Wyostat.ThermoCentral.Interlock
import Wyostat.ThermoCentral.Recovery
import Wyostat.ThermoCentral.Reboot
import Wyostat.ThermoCentral.Presses
import Wyostat.ThermoCentral.Hysteresis
import Wyostat.MqttStat.Startup
import Wyostat.MqttStat.Reboot
import Wyostat.MqttStat.Pair
import Wyostat.Oled.Drawing
import Wyostat.Oled.Pixels
import Wyostat.Oled.Text
import Wyostat.Oled.Utf8
import Wyostat.Oled.Strings
import Wyostat.Oled.Keeping
import Wyostat.Oled.Display
import Wyostat.Oled.Transfer
import Wyostat.OpenThermostat.Pixels
import Wyostat.MqttStat.PowerFailures
import Wyostat.AdafruitMqtt.Connecting
import Wyostat.ThermoCentral.Cloud
